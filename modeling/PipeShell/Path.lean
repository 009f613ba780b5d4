import PipeShell.Text.Fields

/-! # Paths

A path is a text in which `/` separates names. Joining paths is textual: nothing is normalised, so a
directory is shown the way it was given.

* **`Path.join dir name`** — the path that `name` stands for in `dir`.
* **`Path.components`** — the names between slashes, empty ones included.
* **`startingDirectory`** — the directory a session starts in. -/

namespace PipeShell

/-- The character between the names of a path. -/
def pathSeparator : Char := '/'

/-- Does the path start at the root? -/
def Path.isAbsolute : Text → Bool
  | [] => false
  | c :: _ => c == pathSeparator

/-- **The path that a name stands for in a directory.** An absolute name stands for itself; otherwise
one separator is put between the two, unless the directory is empty or already ends in one. -/
def Path.join (dir name : Text) : Text :=
  if isAbsolute name then name
  else if dir = [] ∨ dir.getLast? = some pathSeparator then dir ++ name
  else dir ++ pathSeparator :: name

/-- The names that a path is made of. -/
def Path.components (path : Text) : List Text := fields (· == pathSeparator) path

/-- The path of the directory that names are resolved in when nothing better is known. -/
def Path.here : Text := ".".toList

/-- **The directory a session starts in**: the working directory; if it cannot be read, the absolute
path that the environment gives for it; otherwise `.`. -/
def startingDirectory (workingDir environmentDir : Option Text) : Text :=
  match workingDir, environmentDir with
  | some dir, _ => dir
  | none, some dir => if Path.isAbsolute dir then dir else Path.here
  | none, none => Path.here

example : Path.join "a/".toList "b".toList = "a/b".toList ∧
    Path.join "a".toList [] = "a/".toList ∧ Path.join "a".toList "/b".toList = "/b".toList := by
  decide

end PipeShell
