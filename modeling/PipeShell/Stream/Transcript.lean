import PipeShell.Diagnostic

/-! # What a command writes

Which writes a command makes does not depend on whether the streams accept them: it only stops at the
first that is refused. So a command is a `Transcript`, fixed before anything is written, and failing
streams come in when it is performed.

* **`Transcript`** — the writes of a command in order, and how it ends.
* **`Transcript.reply`** — its effect on streams that do not fail.
* **`Sinks.play`** — write by write onto streams that may fail.
* **`Transcript.perform`** — the same, with a failure of an output reported as the command's own. -/

namespace PipeShell

/-! ## Exit codes -/

/-- How a command ended. -/
inductive ExitCode where
  | success
  /-- A file could not be read, or a stream failed. -/
  | failure
  /-- The arguments or the line made no sense. -/
  | usage
  /-- There is no such command. -/
  | notFound
  deriving DecidableEq, Repr

/-- The exit code as a number. -/
def ExitCode.toNat : ExitCode → Nat
  | .success => 0
  | .failure => 1
  | .usage => 2
  | .notFound => 127

/-- Different ends have different numbers. -/
theorem ExitCode.toNat_injective {c d : ExitCode} (h : c.toNat = d.toNat) : c = d := by
  cases c <;> cases d <;> simp_all [toNat]

/-! ## Transcripts -/

/-- A single write. -/
inductive Write where
  /-- Bytes for the output. -/
  | out (data : Bytes)
  /-- A line for the diagnostics. -/
  | err (d : Diagnostic)
  deriving DecidableEq, Repr

/-- The bytes that a write adds to the output. -/
def Write.output : Write → Bytes
  | .out data => data
  | .err _ => []

/-- The diagnostic that a write reports. -/
def Write.diagnostic? : Write → Option Diagnostic
  | .out _ => none
  | .err d => some d

/-- **What a command does**: its writes in order, and how it ends after them, unless one of them is
refused. -/
structure Transcript where
  writes : List Write := []
  /-- What the command is doing while it writes, where a refusal should say so. -/
  during : Option Activity := none
  /-- The exit code, or the failure of the input that ended the command. -/
  ending : Except StreamFailure ExitCode

/-- A command that only writes. -/
def Transcript.finish (writes : List Write) (code : ExitCode) : Transcript :=
  { writes := writes, ending := .ok code }

/-- **The effect of commands on streams that do not fail.** -/
structure Reply where
  diagnostics : List Diagnostic := []
  output : Bytes := []
  code : ExitCode := .success
  deriving DecidableEq, Repr

/-- What a command with the given name does on outputs that do not fail. -/
def Transcript.reply (cmd : Text) (t : Transcript) : Reply where
  diagnostics := t.writes.filterMap Write.diagnostic? ++
    match t.ending with
    | .ok _ => []
    | .error f => [.streamFailed cmd f]
  output := t.writes.flatMap Write.output
  code := match t.ending with
    | .ok code => code
    | .error _ => .failure

/-! ## Performing writes -/

/-- The two outputs. -/
structure Sinks where
  out : Sink := {}
  err : Sink := {}
  deriving DecidableEq, Repr

/-- Names of the two outputs. -/
inductive Channel where
  | out
  | err
  deriving DecidableEq, Repr

/-- Which output a write goes to. -/
def Write.channel : Write → Channel
  | .out _ => .out
  | .err _ => .err

/-- Does a write fit? -/
def Sinks.accepts (l : Locale) (s : Sinks) : Write → Bool
  | .out data => s.out.accepts data
  | .err d => s.err.accepts (d.line l)

/-- The outputs after a write, or after the part of it that fits. -/
def Sinks.push (l : Locale) (s : Sinks) : Write → Sinks
  | .out data => { s with out := s.out.push data }
  | .err d => { s with err := s.err.push (d.line l) }

/-- **Make writes in order, up to the first that does not fit.** The second component names the
output that refused it. -/
def Sinks.play (l : Locale) : Sinks → List Write → Sinks × Option Channel
  | s, [] => (s, none)
  | s, w :: ws => if s.accepts l w then play l (s.push l w) ws else (s.push l w, some w.channel)

@[simp] theorem Sinks.play_nil (l : Locale) (s : Sinks) : s.play l [] = (s, none) := rfl

theorem Sinks.play_cons (l : Locale) (s : Sinks) (w : Write) (ws : List Write) :
    s.play l (w :: ws)
      = if s.accepts l w then (s.push l w).play l ws else (s.push l w, some w.channel) := rfl

/-- Report a failure as that of a command. The report itself may be refused. -/
def Sinks.report (l : Locale) (cmd : Text) (f : StreamFailure) (s : Sinks) :
    Sinks × Except StreamFailure ExitCode :=
  match s.play l [.err (.streamFailed cmd f)] with
  | (s, none) => (s, .ok .failure)
  | (s, some _) => (s, .error .sinkFull)

/-- **Perform a command on outputs that may fail.** A failure of its input, or of the output for its
results, is reported on the other output and makes it fail; a failure of that output is a failure of
the call. -/
def Transcript.perform (l : Locale) (cmd : Text) (t : Transcript) (s : Sinks) :
    Sinks × Except StreamFailure ExitCode :=
  match s.play l t.writes with
  -- nothing is left to report on
  | (s, some .err) => (s, .error .sinkFull)
  | (s, some .out) => s.report l cmd ⟨t.during, .sinkFull⟩
  | (s, none) =>
    match t.ending with
    | .ok code => (s, .ok code)
    | .error f => s.report l cmd f

/-- On outputs without limits every write is made. -/
theorem Sinks.play_unbounded (l : Locale) (o e : Bytes) (ws : List Write) :
    Sinks.play l ⟨{ written := o }, { written := e }⟩ ws
      = (⟨{ written := o ++ ws.flatMap Write.output },
          { written := e ++ (ws.filterMap Write.diagnostic?).flatMap (Diagnostic.line l) }⟩, none) := by
  induction ws generalizing o e with
  | nil => simp
  | cons w ws ih =>
    cases w <;>
      simp [play_cons, accepts, push, ih, Write.output, Write.diagnostic?, List.filterMap_cons]

end PipeShell
