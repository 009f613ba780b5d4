import PipeShell.Locale

/-! # The arguments of the program

The program takes a language, a way of reading commands, and a script.

* **`Invocation`** — what it is asked to do.
* **`ArgumentError`** — what can be wrong with the arguments; the leftmost problem is the one reported.
* **`parseArguments`** — the reading of the arguments.
* **`usage`** — what is printed when help is asked for. -/

namespace PipeShell

/-- A run of the program. -/
structure Invocation where
  locale : Locale := default
  /-- Read the input as a script instead of line by line. -/
  batch : Bool := false
  /-- The script to execute instead of the input. -/
  script : Option Text := none
  deriving DecidableEq, Repr

/-- What the arguments ask for. -/
inductive Request where
  | help
  | start (i : Invocation)
  deriving DecidableEq, Repr

/-- What is wrong with the arguments. -/
inductive ArgumentError where
  /-- An option that does not exist, or a second script. -/
  | unrecognized (arg : Text)
  /-- The language is missing. -/
  | missingLocale
  /-- The language is given twice. -/
  | repeatedLocale (value : Text)
  /-- There is no such language. -/
  | unknownLocale (value : Text) (e : UnknownLocale)
  /-- An option follows the request for help. -/
  | trailingAfterHelp
  deriving DecidableEq, Repr

/-! ## Wording -/

/-- The error in words, with the line ends that belong to it. -/
def ArgumentError.explanation : ArgumentError → Text
  | .unrecognized arg => "Unrecognized argument: ".toList ++ arg ++ ['\n']
  | .missingLocale => "No value provided for option '--locale'.\n".toList
  | .repeatedLocale value =>
    "Error parsing option '--locale' with value '".toList ++ value ++
      "': duplicate values provided\n".toList
  | .unknownLocale value e =>
    "Error parsing option '--locale' with value '".toList ++ value ++ "': ".toList ++ e.message ++
      ['\n']
  | .trailingAfterHelp => "Trailing arguments are not allowed after `help`.".toList

/-- **What is printed for an error**: the explanation, and where to find help. -/
def ArgumentError.message (e : ArgumentError) : Text :=
  e.explanation ++ "\nRun terminal --help for more information.\n".toList

/-- The lines of the help text. -/
def usageLines : List String := [
  "Usage: terminal [--locale <locale>] [--batch] [-v] [--] [<script>]",
  "",
  "Line-oriented interpreter for pipelines of builtin commands (echo, cat, pwd, wc, grep).",
  "",
  "Positional Arguments:",
  "  script            file with one command per line, executed instead of reading",
  "                    the terminal",
  "",
  "Options:",
  "  --locale          language of error messages: `ru` or `en`",
  "  --batch           read commands from standard input without line editing",
  "  -v, --verbose     log debug diagnostics to standard error",
  "  --help, help      display usage information",
  ""]

/-- **What is printed when help is asked for.** -/
def usage : Text := usageLines.flatMap fun l => l.toList ++ ['\n']

/-! ## Reading -/

/-- What has been read of the arguments. -/
structure ArgumentState where
  help : Bool := false
  /-- A `--` has been read: everything after it is positional. -/
  optionsEnded : Bool := false
  locale : Option Locale := none
  batch : Bool := false
  script : Option Text := none
  deriving DecidableEq, Repr

/-- The request that has been read. -/
def ArgumentState.request (st : ArgumentState) : Request :=
  if st.help then .help else .start ⟨st.locale.getD default, st.batch, st.script⟩

/-- The state with a language, which can be given once. -/
def ArgumentState.withLocale (st : ArgumentState) (value : Text) :
    Except ArgumentError ArgumentState :=
  if st.locale.isSome then .error (.repeatedLocale value)
  else match Locale.parse value with
    | .error e => .error (.unknownLocale value e)
    | .ok l => .ok { st with locale := some l }

/-- The state with a script, which can be given once. -/
def ArgumentState.withScript (st : ArgumentState) (arg : Text) : Except ArgumentError ArgumentState :=
  if st.script.isSome then .error (.unrecognized arg) else .ok { st with script := some arg }

/-- Is the argument to be read as an option? -/
def looksLikeOption : Text → Bool
  | [] => false
  | c :: _ => c == '-'

/-- **The reading of arguments**, after some have been read. The debug log that `--verbose` asks for, whose
lines carry times, is no part of what a run prints here, so the option is accepted and asks for nothing. -/
def readArguments : ArgumentState → List Text → Except ArgumentError Request
  | st, [] => .ok st.request
  | st, arg :: rest =>
    if st.optionsEnded = false ∧ (arg = "--help".toList ∨ arg = "help".toList) then
      -- the reading goes on, since a later problem takes precedence over help
      readArguments { st with help := true } rest
    else if st.optionsEnded = false ∧ looksLikeOption arg = true then
      if arg = "--".toList then readArguments { st with optionsEnded := true } rest
      else if st.help then .error .trailingAfterHelp
      else if arg = "--batch".toList then readArguments { st with batch := true } rest
      else if arg = "-v".toList ∨ arg = "--verbose".toList then readArguments st rest
      else if arg = "--locale".toList then
        match rest with
        | [] => .error .missingLocale
        | value :: rest =>
          -- the value is taken as it is, also if it looks like an option
          match st.withLocale value with
          | .error e => .error e
          | .ok st => readArguments st rest
      else .error (.unrecognized arg)
    else match st.withScript arg with
      | .error e => .error e
      | .ok st => readArguments st rest

/-- **What the arguments ask for.** -/
def parseArguments (args : List Text) : Except ArgumentError Request := readArguments {} args

example : parseArguments (["--batch", "--", "help"].map String.toList)
    = .ok (.start { batch := true, script := some "help".toList }) := rfl

example : parseArguments (["help", "-v"].map String.toList) = .error .trailingAfterHelp := rfl

end PipeShell
