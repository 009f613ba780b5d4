import PipeShell.FileTree
import PipeShell.Stream.Transcript

/-! # What commands have in common

* **`Surroundings`** — what a command sees of the session: the language, the directory, the files.
* **`Surroundings.overFiles`** — a command applied to each of its file arguments in turn.
* **`Source.filter`** — a command applied to the whole of its input. -/

namespace PipeShell

/-- What a command can see beside its arguments and its input. -/
structure Surroundings where
  locale : Locale
  dir : Text
  disk : Disk

/-- The content of a file named on the command line, if it can be read. -/
def Surroundings.read? (s : Surroundings) (name : Text) : Option Bytes :=
  match s.disk (Path.join s.dir name) with
  | .ok content => some content
  | .error _ => none

/-- The write for one file: what is shown of its content, or a report that it cannot be read. -/
def Surroundings.showFile (s : Surroundings) (cmd : Text) (shown : Text → Bytes → Bytes)
    (name : Text) : Write :=
  match s.read? name with
  | some content => .out (shown name content)
  | none => .err (.unreadable cmd name)

/-- The exit code of a command that reads files: a failure if one of them cannot be read. -/
def Surroundings.filesCode (s : Surroundings) (names : List Text) : ExitCode :=
  if names.all fun name => (s.read? name).isSome then .success else .failure

/-- **A command applied to its files**, one after the other, and then some writes of its own. A file
that cannot be read does not keep the others from being shown. -/
def Surroundings.overFiles (s : Surroundings) (cmd : Text) (shown : Text → Bytes → Bytes)
    (names : List Text) (summary : List Write) : Transcript :=
  .finish (names.map (s.showFile cmd shown) ++ summary) (s.filesCode names)

/-- **A command applied to its input.** The input is read to its end before anything is written. -/
def Source.filter (src : Source) (shown : Bytes → Bytes) : Transcript :=
  if src.fails then { ending := .error ⟨some .readingInput, .sourceFailed⟩ }
  else .finish [.out (shown src.data)] .success

end PipeShell
