import PipeShell.Command.Count
import PipeShell.Search.Arguments
import PipeShell.Search.Context

/-! # The commands

* **`Command`** — the five commands, found by name.
* **`Command.transcript`** — what a command does, given its arguments and its input. -/

namespace PipeShell

/-- The commands of the shell. -/
inductive Command where
  /-- Print the arguments. -/
  | echo
  /-- Print files, or the input. -/
  | cat
  /-- Print the directory of the session. -/
  | pwd
  /-- Count lines, words and bytes. -/
  | wc
  /-- Print the lines that contain a text. -/
  | grep
  deriving DecidableEq, Repr

/-- All commands. -/
def Command.all : List Command := [.echo, .cat, .pwd, .wc, .grep]

/-- The name of a command. -/
def Command.name : Command → Text
  | .echo => "echo".toList
  | .cat => "cat".toList
  | .pwd => "pwd".toList
  | .wc => "wc".toList
  | .grep => "grep".toList

/-- Different commands have different names. -/
theorem Command.name_injective {c d : Command} (h : c.name = d.name) : c = d := by
  revert h
  cases c <;> cases d <;> decide

/-- Print a text and a line feed. -/
def printLine (t : Text) : Transcript := .finish [.out (t.utf8 ++ [lineFeed])] .success

/-- Print files one after the other, or copy the input. What can be read of an input that fails is
copied. -/
def concatenate (cmd : Text) (s : Surroundings) (names : List Text) (input : Source) : Transcript :=
  match names with
  | [] =>
    { writes := [.out input.data]
      during := some .copyingInput
      ending := if input.fails then .error ⟨some .copyingInput, .sourceFailed⟩ else .ok .success }
  | names => s.overFiles cmd (fun _ data => data) names []

/-- The bytes printed by a search of some bytes. -/
def SearchRequest.printed (r : SearchRequest) (label : Option Text) (data : Bytes) : Bytes :=
  PipeShell.printed (matchesLine r.options.mode r.pattern) r.options.after label data

/-- Print the matching lines of each file, or of the input if there is none. The lines are labelled
with the name of their file if more than one is named. -/
def SearchRequest.transcript (r : SearchRequest) (cmd : Text) (s : Surroundings) (input : Source) :
    Transcript :=
  match r.files with
  | [] => input.filter (r.printed none)
  | [name] => s.overFiles cmd (fun _ => r.printed none) [name] []
  | names => s.overFiles cmd (fun name => r.printed (some name)) names []

/-- **What a command does.** -/
def Command.transcript (c : Command) (s : Surroundings) (args : List Text) (input : Source) :
    Transcript :=
  match c with
  | .echo => printLine ([' '].intercalate args)
  | .cat => concatenate c.name s args input
  | .pwd => printLine s.dir
  | .wc => count c.name s args input
  | .grep =>
    match parseSearch args with
    | .error e => .finish [.err (e.diagnostic c.name)] .usage
    | .ok r => r.transcript c.name s input

end PipeShell
