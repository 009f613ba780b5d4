import PipeShell.CommandLine.Arguments
import PipeShell.Session

/-! # The program

* **`editedLine`** — what is left of a typed line when its backspaces have taken effect.
* **`typedLines`** — the lines that can be read from an interactive input.
* **`runProgram`** — what the program prints, and its exit code, as a function of its arguments, its
  input and the files. -/

namespace PipeShell

/-- What a run of the program leaves. -/
structure Exit where
  code : ExitCode := .success
  out : Bytes := []
  err : Bytes := []
  deriving DecidableEq, Repr

/-- The report of an error that ends the program: what failed, and because of what. -/
def errorReport (what cause : Text) : Bytes :=
  Text.utf8 ("Error: ".toList ++ what ++ "\n\nCaused by:\n    ".toList ++ cause ++ ['\n'])

/-- What some outputs without limits have collected, with an exit code. -/
def Sinks.exit (sinks : Sinks) (code : ExitCode) : Exit := ⟨code, sinks.out.written, sinks.err.written⟩

/-! ## Typed lines -/

/-- The character that takes back the one before it. -/
def backspace : Char := '\x08'

/-- **A line with its backspaces carried out.** Each disappears together with the character before
it, if there is one. A line editor takes back a grapheme cluster, which is all of a letter with its
combining marks; here one character is taken back, so that the two agree on lines in which no backspace
meets a cluster of several characters. -/
def editedLine (t : Text) : Text :=
  (t.foldl (fun typed c => if c = backspace then typed.tail else c :: typed) []).reverse

/-- A line without backspaces stays as it is. -/
theorem editedLine_of_not_mem {t : Text} (h : backspace ∉ t) : editedLine t = t := by
  have go (typed : Text) (t : Text) (h : backspace ∉ t) :
      t.foldl (fun typed c => if c = backspace then typed.tail else c :: typed) typed
        = t.reverse ++ typed := by
    induction t generalizing typed with
    | nil => rfl
    | cons c t ih =>
      have hc : c ≠ backspace := fun hc => h (hc ▸ List.mem_cons_self)
      simp [hc, ih (c :: typed) (fun ht => h (List.mem_cons_of_mem c ht))]
  simp [editedLine, go [] t h]

/-- The lines of an interactive input as bytes. A carriage return is taken off before a line feed
only: an unterminated last line keeps its own. -/
def rawLines (input : Bytes) : List Bytes :=
  let (ls, rest) := cutLines input
  ls.map dropCarriageReturn ++ (if rest = [] then [] else [rest])

/-- Texts up to the first line that encodes none, and whether there was no such line. -/
def decodedLines : List Bytes → List Text × Bool
  | [] => ([], true)
  | l :: ls =>
    match l.text? with
    | none => ([], false)
    | some t => (t :: (decodedLines ls).1, (decodedLines ls).2)

/-- **The lines typed on an input**, and whether all of it could be read. -/
def typedLines (input : Bytes) : List Text × Bool :=
  let (ls, complete) := decodedLines (rawLines input)
  (ls.map editedLine, complete)

/-! ## Ways of running -/

/-- Execute the lines of a script. The exit code says nothing about its commands. -/
def Session.runScript (s : Session) (disk : Disk) (content : Bytes) : Exit :=
  (s.run disk {} { data := content }).sinks.exit .success

/-- The report for bytes that encode no text. -/
def notTextReport : Bytes :=
  errorReport "stream did not contain valid UTF-8".toList "stream did not contain valid UTF-8".toList

/-- Execute lines as they are typed. -/
def Session.runTyped (s : Session) (disk : Disk) (input : Bytes) : Exit :=
  let (ls, complete) := typedLines input
  let e := (s.submitAll disk {} ls).sinks.exit .success
  if complete then e else { e with code := .failure, err := e.err ++ notTextReport }

/-- The report for a script that cannot be read. A directory can be opened, and fails when it is
read. -/
def scriptReport (path : Text) (e : FileError) : Bytes :=
  match e with
  | .isDirectory => errorReport Activity.readingCommandLine.message e.message
  | e => errorReport ("cannot open ".toList ++ path) e.message

/-- Execute the lines that an invocation asks for. -/
def Invocation.run (i : Invocation) (dir : Text) (disk : Disk) (input : Bytes) : Exit :=
  let s : Session := { dir := dir, locale := i.locale }
  match i.script with
  | some path =>
    match disk path with
    | .ok content => s.runScript disk content
    | .error e => { code := .failure, err := scriptReport path e }
  | none => if i.batch then s.runScript disk input else s.runTyped disk input

/-- **What the program does.** -/
def runProgram (dir : Text) (disk : Disk) (args : List Text) (input : Bytes) : Exit :=
  match parseArguments args with
  | .error e => { code := .failure, err := e.message.utf8 }
  | .ok .help => { out := usage.utf8 }
  | .ok (.start i) => i.run dir disk input

end PipeShell
