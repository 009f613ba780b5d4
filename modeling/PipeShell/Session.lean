import PipeShell.Command
import PipeShell.Pipeline

/-! # Sessions

A session keeps the bindings made by the lines it has executed, and beside them only what it was
started with.

* **`Session.runStage`** — run one stage on given streams.
* **`Session.reply`** — what a line does on streams that do not fail, and the session after it.
* **`Session.submit`** — the same on streams that may fail.
* **`Session.run`** — execute the lines of an input until it ends or a stream fails.

A line that is rejected, and a command that fails, leave the session usable; only a stream failure
ends a run. Even then the assignments of the line that met it have been made. -/

namespace PipeShell

/-- The state of a session. -/
structure Session where
  store : Store := {}
  /-- The directory that file names are resolved in, as it was given. -/
  dir : Text
  locale : Locale
  /-- The commands that can be called. -/
  commands : List Command := Command.all
  deriving DecidableEq, Repr

/-- What the commands of a session see of it. -/
def Session.surroundings (s : Session) (disk : Disk) : Surroundings := ⟨s.locale, s.dir, disk⟩

/-- The command of the session with a given name. -/
def Session.command? (s : Session) (name : Text) : Option Command :=
  s.commands.find? fun c => c.name == name

/-! ## Stages -/

/-- The name under which a missing command is reported. A word such as `x=` looks like an assignment
whose value is missing, and is reported as `x`. -/
def reportedName (name : Text) : Text :=
  if name.getLast? = some '=' ∧ isName name.dropLast = true then name.dropLast else name

/-- **What a stage does**, given its input. -/
def Session.transcript (s : Session) (disk : Disk) (stage : Stage) (input : Source) : Transcript :=
  match s.command? stage.name with
  | some c => c.transcript (s.surroundings disk) stage.args input
  | none => .finish [.err (.unknownCommand (reportedName stage.name))] .notFound

/-- **Run one stage** on an input and outputs that may fail. -/
def Session.runStage (s : Session) (disk : Disk) (stage : Stage) (input : Source) (sinks : Sinks) :
    Sinks × Except StreamFailure ExitCode :=
  (s.transcript disk stage input).perform s.locale stage.name sinks

/-! ## Pipelines -/

/-- What a stage does to what the stages before it have done: it reads their output. -/
def Session.stageReply (s : Session) (disk : Disk) (before : Reply) (stage : Stage) : Reply :=
  let here := (s.transcript disk stage { data := before.output }).reply stage.name
  { here with diagnostics := before.diagnostics ++ here.diagnostics }

/-- **What a pipeline does**: each stage to its end, the first with an empty input. The output and the
exit code are those of the last stage, the diagnostics those of all. -/
def Session.pipelineReply (s : Session) (disk : Disk) (stages : List Stage) : Reply :=
  stages.foldl (s.stageReply disk) {}

@[simp] theorem Session.pipelineReply_nil (s : Session) (disk : Disk) :
    s.pipelineReply disk [] = {} := rfl

/-- One more stage reads what the stages before it have printed. -/
theorem Session.pipelineReply_concat (s : Session) (disk : Disk) (stages : List Stage)
    (stage : Stage) :
    s.pipelineReply disk (stages ++ [stage]) = s.stageReply disk (s.pipelineReply disk stages) stage := by
  simp [pipelineReply]

/-! ## Lines -/

/-- **What a line does**, and the session after it. -/
def Session.reply (s : Session) (disk : Disk) (line : Text) : Reply × Session :=
  match planLine s.store line with
  | .error reason => ({ diagnostics := [.rejected reason], code := .usage }, s)
  | .ok p => (s.pipelineReply disk p.stages, { s with store := p.store })

/-- The session after a line. -/
def Session.afterLine (s : Session) (line : Text) : Session :=
  match planLine s.store line with
  | .ok p => { s with store := p.store }
  | .error _ => s

/-- What a line does has no part in the session after it. -/
theorem Session.reply_snd (s : Session) (disk : Disk) (line : Text) :
    (s.reply disk line).2 = s.afterLine line := by
  unfold reply afterLine
  cases planLine s.store line <;> rfl

/-- The writes of a line. Diagnostics are written as they arise; the output follows when the last
stage has ended. -/
def Reply.writes (r : Reply) : List Write := r.diagnostics.map .err ++ [.out r.output]

/-- What is left after executing something: the session, the outputs, and the result unless a stream
has failed. -/
structure Outcome (α : Type) where
  session : Session
  sinks : Sinks
  result : Except StreamFailure α

/-- **Execute a line.** -/
def Session.submit (disk : Disk) (s : Session) (sinks : Sinks) (line : Text) : Outcome ExitCode :=
  let (r, after) := s.reply disk line
  match sinks.play s.locale r.writes with
  | (sinks, none) => ⟨after, sinks, .ok r.code⟩
  | (sinks, some _) => ⟨after, sinks, .error .sinkFull⟩

/-! ## Runs -/

/-- **Execute lines** until there are no more or a stream fails. -/
def Session.submitAll (disk : Disk) : Session → Sinks → List Text → Outcome Unit
  | s, sinks, [] => ⟨s, sinks, .ok ()⟩
  | s, sinks, line :: rest =>
    match s.submit disk sinks line with
    | ⟨s, sinks, .ok _⟩ => submitAll disk s sinks rest
    | ⟨s, sinks, .error f⟩ => ⟨s, sinks, .error f⟩

@[simp] theorem Session.submitAll_nil (disk : Disk) (s : Session) (sinks : Sinks) :
    s.submitAll disk sinks [] = ⟨s, sinks, .ok ()⟩ := rfl

/-- Lines are executed after those before them, unless a stream has failed by then. -/
theorem Session.submitAll_append (disk : Disk) (s : Session) (sinks : Sinks) (ls ms : List Text) :
    s.submitAll disk sinks (ls ++ ms) = match s.submitAll disk sinks ls with
      | ⟨s, sinks, .ok ()⟩ => s.submitAll disk sinks ms
      | o => o := by
  induction ls generalizing s sinks with
  | nil => rfl
  | cons line ls ih =>
    rw [List.cons_append, submitAll, submitAll]
    split
    next s sinks code _ => exact ih s sinks
    next => rfl

/-- The command line that some bytes spell: without a carriage return at the end, and with U+FFFD for
whatever is no character. -/
def commandLine (line : Bytes) : Text := (dropCarriageReturn line).lossyText

/-- The command lines that can be read from a source. If it fails, the line it breaks off in is none
of them. -/
def Source.commandLines (src : Source) : List Text :=
  (if src.fails then (cutLines src.data).1 else src.data.lines).map commandLine

/-- **Execute the command lines of a source.** -/
def Session.run (disk : Disk) (s : Session) (sinks : Sinks) (src : Source) : Outcome Unit :=
  match s.submitAll disk sinks src.commandLines with
  -- the source is only found to fail when every line before that has been executed
  | ⟨s, sinks, .ok ()⟩ =>
    ⟨s, sinks, if src.fails then .error ⟨some .readingCommandLine, .sourceFailed⟩ else .ok ()⟩
  | o => o

end PipeShell
