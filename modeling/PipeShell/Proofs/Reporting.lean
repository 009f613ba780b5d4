import Mathlib.Data.List.Induction
import PipeShell.CommandLine.Files
import PipeShell.Proofs.Truncation

/-! # What a stage reports

No command reports anything about the bytes that it reads. What a stage reports, and how it ends, is
settled by its name, its arguments and the files; only what it prints depends on its input. So the
diagnostics of a pipeline are those that its stages make each on their own.

* **`Command.reports`**, **`Command.exitCode`** — diagnostics and exit code without an input.
* **`Session.flow`** — what comes out of some stages when bytes are let into the first.
* **`Session.pipelineReply_eq`** — a pipeline in terms of these.
* **`Session.runPipeline_reports`** — diagnostics and exit code of a pipeline, and of each stage. -/

namespace PipeShell

/-! ## Outputs that do not fail -/

/-- On outputs without limits every write is made, and those of diagnostics are their lines. -/
theorem Sinks.play_holding (l : Locale) (o e : Bytes) (ws : List Write) :
    Sinks.play l (.holding o e) ws
      = (.holding (o ++ ws.flatMap Write.output)
          (e ++ reportOf l (ws.filterMap Write.diagnostic?)), none) :=
  play_unbounded l o e ws

/-- **A command on outputs that do not fail** leaves what its reply says. -/
theorem Transcript.perform_holding (l : Locale) (cmd : Text) (t : Transcript) (o e : Bytes) :
    t.perform l cmd (.holding o e)
      = (.holding (o ++ (t.reply cmd).output) (e ++ reportOf l (t.reply cmd).diagnostics),
          .ok (t.reply cmd).code) := by
  rw [perform, Sinks.play_holding]
  cases hending : t.ending with
  | ok code => simp [reply, hending]
  | error f => simp [reply, hending, Sinks.holding, Sinks.report_eq, reportOf_append]

/-- Diagnostics are written as nothing only if there are none. -/
theorem reportOf_eq_nil_iff {l : Locale} {ds : List Diagnostic} : reportOf l ds = [] ↔ ds = [] := by
  cases ds with
  | nil => simp
  | cons d ds => simp [Diagnostic.line_ne_nil]

/-- Diagnostics are whole lines. -/
theorem endsLine_reportOf (l : Locale) (ds : List Diagnostic) : EndsLine (reportOf l ds) := by
  rcases List.eq_nil_or_concat ds with rfl | ⟨init, d, rfl⟩
  · exact .inl rfl
  · exact .inr (by simp [reportOf_append, Diagnostic.line])

/-! ## Commands -/

/-- What is wrong with the arguments of a command. Only those of a search are ever rejected. -/
def Command.fault? (c : Command) (args : List Text) : Option SearchFault :=
  match c, parseSearch args with
  | .grep, .error e => some e
  | _, _ => none

/-- The files that cannot be read, each as often as it is named. -/
def Surroundings.unreadable (s : Surroundings) (names : List Text) : List Text :=
  names.filter fun name => (s.read? name).isNone

/-- **What a command reports**: the fault in its arguments, or else every file that it cannot read. -/
def Command.reports (c : Command) (s : Surroundings) (args : List Text) : List Diagnostic :=
  match c.fault? args with
  | some e => [e.diagnostic c.name]
  | none => (s.unreadable (c.fileArguments args)).map (.unreadable c.name)

/-- **How a command ends.** -/
def Command.exitCode (c : Command) (s : Surroundings) (args : List Text) : ExitCode :=
  match c.fault? args with
  | some _ => .usage
  | none => s.filesCode (c.fileArguments args)

/-- **Are these the diagnostics and this the exit code of a command?** Its input has not failed then. -/
structure Transcript.Reports (t : Transcript) (ds : List Diagnostic) (code : ExitCode) : Prop where
  diagnostics : t.writes.filterMap Write.diagnostic? = ds
  ending : t.ending = .ok code

/-- The reply of a command has its diagnostics and its exit code. -/
theorem Transcript.Reports.reply_eq {t : Transcript} {ds : List Diagnostic} {code : ExitCode}
    (h : t.Reports ds code) (cmd : Text) :
    t.reply cmd = ⟨ds, t.writes.flatMap Write.output, code⟩ := by
  simp [reply, h.diagnostics, h.ending]

/-- What is written for some files reports those of them that cannot be read. -/
theorem Surroundings.filterMap_showFile (s : Surroundings) (cmd : Text)
    (shown : Text → Bytes → Bytes) (names : List Text) :
    (names.map (s.showFile cmd shown)).filterMap Write.diagnostic?
      = (s.unreadable names).map (.unreadable cmd) := by
  induction names with
  | nil => rfl
  | cons name names ih =>
    rw [unreadable] at ih ⊢
    cases hread : s.read? name with
    | none => simp [showFile, hread, Write.diagnostic?, ih]
    | some content =>
      have hwrite : s.showFile cmd shown name = .out (shown name content) := by
        rw [showFile, hread]
      rw [List.map_cons, hwrite, List.filterMap_cons_none rfl, ih, List.filter_cons_of_neg (by simp [hread])]

/-- A command applied to its files reports those that it cannot read, if its summary reports
nothing. -/
theorem Surroundings.reports_overFiles (s : Surroundings) (cmd : Text)
    (shown : Text → Bytes → Bytes) (names : List Text) {summary : List Write}
    (h : summary.filterMap Write.diagnostic? = []) :
    (s.overFiles cmd shown names summary).Reports ((s.unreadable names).map (.unreadable cmd))
      (s.filesCode names) := by
  refine ⟨?_, rfl⟩
  rw [overFiles, Transcript.finish, List.filterMap_append, filterMap_showFile, h, List.append_nil]

/-- The row of totals reports nothing. -/
theorem filterMap_diagnostic?_totalRow (s : Surroundings) (names : List Text) :
    (totalRow s names).filterMap Write.diagnostic? = [] := by
  unfold totalRow
  split <;> rfl

/-- **A command reports and ends as its arguments and the files say**, whatever bytes it reads. -/
theorem Command.reports_transcript (c : Command) (s : Surroundings) (args : List Text)
    (data : Bytes) :
    (c.transcript s args { data := data }).Reports (c.reports s args) (c.exitCode s args) := by
  cases c with
  | echo | pwd => exact ⟨rfl, rfl⟩
  | cat =>
    cases args with
    | nil => exact ⟨rfl, rfl⟩
    | cons name names => exact s.reports_overFiles _ _ _ rfl
  | wc =>
    cases args with
    | nil => exact ⟨rfl, rfl⟩
    | cons name names => exact s.reports_overFiles _ _ _ (filterMap_diagnostic?_totalRow s _)
  | grep =>
    cases hread : parseSearch args with
    | error e => simp only [transcript, reports, exitCode, fault?, hread]; exact ⟨rfl, rfl⟩
    | ok r =>
      simp only [transcript, reports, exitCode, fault?, fileArguments, hread]
      unfold SearchRequest.transcript
      split
      next hfiles => rw [hfiles]; exact ⟨rfl, rfl⟩
      next name hfiles => rw [hfiles]; exact s.reports_overFiles _ _ _ rfl
      next => exact s.reports_overFiles _ _ _ rfl

/-- The files can all be read if none of them is unreadable. -/
theorem Surroundings.filesCode_eq (s : Surroundings) (names : List Text) :
    s.filesCode names = if s.unreadable names = [] then .success else .failure := by
  have hall : (names.all fun name => (s.read? name).isSome) = true ↔ s.unreadable names = [] := by
    simp [unreadable, List.filter_eq_nil_iff, Option.isSome_iff_ne_none]
  simp only [filesCode, hall]

/-- A command ends in success exactly if it reports nothing. -/
theorem Command.exitCode_eq_success_iff {c : Command} {s : Surroundings} {args : List Text} :
    c.exitCode s args = .success ↔ c.reports s args = [] := by
  unfold exitCode reports
  cases c.fault? args with
  | some e => simp
  | none => simp [Surroundings.filesCode_eq]

/-! ## Stages -/

/-- **What a stage reports.** -/
def Session.stageReports (s : Session) (disk : Disk) (stage : Stage) : List Diagnostic :=
  match s.command? stage.name with
  | some c => c.reports (s.surroundings disk) stage.args
  | none => [.unknownCommand (reportedName stage.name)]

/-- **How a stage ends.** -/
def Session.stageCode (s : Session) (disk : Disk) (stage : Stage) : ExitCode :=
  match s.command? stage.name with
  | some c => c.exitCode (s.surroundings disk) stage.args
  | none => .notFound

/-- **What a stage prints** when it reads some bytes. -/
def Session.stageOutput (s : Session) (disk : Disk) (stage : Stage) (data : Bytes) : Bytes :=
  (s.transcript disk stage { data := data }).writes.flatMap Write.output

/-- A stage reports and ends in the same way whatever it reads. -/
theorem Session.reports_transcript (s : Session) (disk : Disk) (stage : Stage) (data : Bytes) :
    (s.transcript disk stage { data := data }).Reports (s.stageReports disk stage)
      (s.stageCode disk stage) := by
  unfold transcript stageReports stageCode
  cases s.command? stage.name with
  | none => exact ⟨rfl, rfl⟩
  | some c => exact c.reports_transcript _ _ data

/-- **A stage that runs on its own**, on outputs that do not fail. -/
theorem Session.runStage_holding (s : Session) (disk : Disk) (stage : Stage) (data o e : Bytes) :
    s.runStage disk stage { data := data } (.holding o e)
      = (.holding (o ++ s.stageOutput disk stage data)
          (e ++ reportOf s.locale (s.stageReports disk stage)), .ok (s.stageCode disk stage)) := by
  rw [runStage, Transcript.perform_holding, (s.reports_transcript disk stage data).reply_eq]
  rfl

/-- A stage in a pipeline adds its diagnostics, ends as it does, and prints in place of those before
it. -/
theorem Session.stageReply_eq (s : Session) (disk : Disk) (before : Reply) (stage : Stage) :
    s.stageReply disk before stage
      = ⟨before.diagnostics ++ s.stageReports disk stage, s.stageOutput disk stage before.output,
          s.stageCode disk stage⟩ := by
  rw [stageReply, (s.reports_transcript disk stage before.output).reply_eq]
  rfl

/-! ## Pipelines -/

/-- **What comes out of some stages** when bytes are let into the first of them. -/
def Session.flow (s : Session) (disk : Disk) (data : Bytes) (stages : List Stage) : Bytes :=
  stages.foldl (fun data stage => s.stageOutput disk stage data) data

@[simp] theorem Session.flow_nil (s : Session) (disk : Disk) (data : Bytes) :
    s.flow disk data [] = data := rfl

@[simp] theorem Session.flow_cons (s : Session) (disk : Disk) (data : Bytes) (stage : Stage)
    (stages : List Stage) :
    s.flow disk data (stage :: stages) = s.flow disk (s.stageOutput disk stage data) stages := rfl

/-- What comes out of the first stages goes into the others. -/
theorem Session.flow_append (s : Session) (disk : Disk) (data : Bytes) (ss ts : List Stage) :
    s.flow disk data (ss ++ ts) = s.flow disk (s.flow disk data ss) ts := List.foldl_append

/-- How a pipeline ends: as its last stage does. -/
def Session.lastCode (s : Session) (disk : Disk) (stages : List Stage) : ExitCode :=
  stages.getLast?.elim .success (s.stageCode disk)

/-- **What a pipeline does**: it reports what its stages report, ends as the last of them does, and
prints what comes out of it when nothing is let in. -/
theorem Session.pipelineReply_eq (s : Session) (disk : Disk) (stages : List Stage) :
    s.pipelineReply disk stages
      = ⟨stages.flatMap (s.stageReports disk), s.flow disk [] stages, s.lastCode disk stages⟩ := by
  induction stages using List.reverseRecOn with
  | nil => rfl
  | append_singleton stages stage ih =>
    rw [pipelineReply_concat, stageReply_eq, ih, flow_append]
    simp [lastCode]

/-- **A pipeline on outputs that do not fail.** -/
theorem Session.runPipeline_holding (s : Session) (disk : Disk) (o e : Bytes)
    (stages : List Stage) :
    s.runPipeline disk (.holding o e) stages
      = (.holding (o ++ s.flow disk [] stages)
          (e ++ reportOf s.locale (stages.flatMap (s.stageReports disk))),
          .ok (s.lastCode disk stages)) := by
  have hstages := s.runStages_eq disk {} { written := e } rfl stages
  rw [← pipelineReply, pipelineReply_eq, reportOf_nil, Sink.push_nil] at hstages
  rw [runPipeline, Sinks.holding, hstages]
  rfl

/-! ## The default commands -/

/-- What is found under a name has that name. -/
theorem Session.name_of_command? {s : Session} {name : Text} {c : Command}
    (h : s.command? name = some c) : name = c.name := by
  have hname : c.name = name := by simpa using List.find?_some h
  exact hname.symm

/-- With all commands there, a command is found under its name. -/
theorem Session.command?_eq_some_iff {s : Session} (hs : s.commands = Command.all) {name : Text}
    {c : Command} : s.command? name = some c ↔ name = c.name := by
  refine ⟨name_of_command?, ?_⟩
  rintro rfl
  rw [command?, hs]
  cases c <;> rfl

/-- Each of them is found by its name. -/
theorem Session.command?_name {s : Session} (hs : s.commands = Command.all) (c : Command) :
    s.command? c.name = some c :=
  (command?_eq_some_iff hs).2 rfl

/-- With all commands there, nothing is found only under a name that is none of theirs. -/
theorem Session.command?_eq_none_iff {s : Session} (hs : s.commands = Command.all) {name : Text} :
    s.command? name = none ↔ ∀ c : Command, name ≠ c.name := by
  simp only [Option.eq_none_iff_forall_ne_some, ne_eq, command?_eq_some_iff hs]

/-- A name on the command line stands for no content if its path cannot be read. -/
theorem Surroundings.read?_eq_none_iff {s : Surroundings} {name : Text} :
    s.read? name = none ↔ ∃ reason, s.disk (Path.join s.dir name) = .error reason := by
  unfold read?
  cases s.disk (Path.join s.dir name) <;> simp

/-- Only a search whose arguments cannot be read has a fault in them. -/
theorem Command.fault?_eq_some_iff {c : Command} {args : List Text} {fault : SearchFault} :
    c.fault? args = some fault ↔ c = .grep ∧ parseSearch args = .error fault := by
  cases c <;> cases hread : parseSearch args <;> simp [fault?, hread]

/-- Arguments that are rejected name no files. -/
theorem Command.fileArguments_of_fault? {c : Command} {args : List Text} {fault : SearchFault}
    (h : c.fault? args = some fault) : c.fileArguments args = [] := by
  obtain ⟨rfl, hread⟩ := fault?_eq_some_iff.1 h
  simp only [fileArguments, hread]

/-- A stage ends in success exactly if it reports nothing. -/
theorem Session.stageCode_eq_success_iff {s : Session} {disk : Disk} {stage : Stage} :
    s.stageCode disk stage = .success ↔ s.stageReports disk stage = [] := by
  unfold stageCode stageReports
  cases s.command? stage.name with
  | none => simp
  | some c => exact Command.exitCode_eq_success_iff

/-- No command says of itself that it is not there. -/
theorem Command.exitCode_ne_notFound (c : Command) (s : Surroundings) (args : List Text) :
    c.exitCode s args ≠ .notFound := by
  unfold exitCode
  split
  · simp
  · rw [Surroundings.filesCode_eq]
    split <;> simp

/-- A command ends as misused exactly if there is a fault in its arguments. -/
theorem Command.exitCode_eq_usage_iff {c : Command} {s : Surroundings} {args : List Text} :
    c.exitCode s args = .usage ↔ ∃ fault, c.fault? args = some fault := by
  unfold exitCode
  cases c.fault? args with
  | some e => simp
  | none =>
    simp only [Surroundings.filesCode_eq]
    by_cases hread : s.unreadable (c.fileArguments args) = [] <;> simp [hread]

/-- A command ends in failure exactly if one of its files cannot be read. -/
theorem Command.exitCode_eq_failure_iff {c : Command} {s : Surroundings} {args : List Text} :
    c.exitCode s args = .failure ↔
      ∃ name ∈ c.fileArguments args, ∃ reason, s.disk (Path.join s.dir name) = .error reason := by
  simp only [← Surroundings.read?_eq_none_iff]
  unfold exitCode
  cases hfault : c.fault? args with
  | some e => simp [fileArguments_of_fault? hfault]
  | none => simp [Surroundings.filesCode_eq, Surroundings.unreadable, List.filter_eq_nil_iff]

/-- A stage ends as not found exactly if no command has its name. -/
theorem Session.stageCode_eq_notFound_iff {s : Session} (hs : s.commands = Command.all)
    {disk : Disk} {stage : Stage} :
    s.stageCode disk stage = .notFound ↔ ∀ c : Command, stage.name ≠ c.name := by
  rw [← command?_eq_none_iff hs, stageCode]
  cases s.command? stage.name with
  | none => simp
  | some c => simp [Command.exitCode_ne_notFound]

/-- A stage ends as misused exactly if it is a search whose arguments are rejected. -/
theorem Session.stageCode_eq_usage_iff {s : Session} (hs : s.commands = Command.all)
    {disk : Disk} {stage : Stage} :
    s.stageCode disk stage = .usage ↔
      stage.name = Command.grep.name ∧ ∃ fault, parseSearch stage.args = .error fault := by
  rw [← command?_eq_some_iff hs, stageCode]
  cases s.command? stage.name with
  | none => simp
  | some c =>
    simp only [Command.exitCode_eq_usage_iff, Command.fault?_eq_some_iff, exists_and_left,
      Option.some.injEq]

/-- A stage ends in failure exactly if it names a file that cannot be read. -/
theorem Session.stageCode_eq_failure_iff {s : Session} {disk : Disk} {stage : Stage} :
    s.stageCode disk stage = .failure ↔
      ∃ name ∈ s.fileArguments stage, ∃ reason, disk (Path.join s.dir name) = .error reason := by
  unfold stageCode fileArguments
  cases s.command? stage.name with
  | none => simp
  | some c => exact Command.exitCode_eq_failure_iff

/-! ## Diagnostics and data -/

/-- Exit codes are the same if their numbers are. -/
theorem ExitCode.toNat_inj (c d : ExitCode) : c.toNat = d.toNat ↔ c = d :=
  ⟨toNat_injective, congrArg toNat⟩

/-- What a stage writes to the output for diagnostics when it runs on its own. -/
theorem Session.err_runStage (s : Session) (disk : Disk) (stage : Stage) :
    (s.runStage disk stage {} {}).1.err.written
      = reportOf s.locale (s.stageReports disk stage) := by
  have halone := s.runStage_holding disk stage [] [] []
  exact congrArg (·.1.err.written) halone

/-- How a stage ends when it runs on its own. -/
theorem Session.code_runStage (s : Session) (disk : Disk) (stage : Stage) :
    (s.runStage disk stage {} {}).2 = .ok (s.stageCode disk stage) :=
  congrArg Prod.snd (s.runStage_holding disk stage [] [] [])

/-- **The diagnostics of a pipeline do not depend on what flows through it.** On outputs that do not
fail, a pipeline succeeds; what it writes to the output for diagnostics is what its stages write there,
one after the other, when each of them runs on its own with nothing to read; and it ends as its last
stage does then. A stage on its own ends with one of four codes, the first exactly if it reports
nothing, and what it reports is whole lines. It ends with 127 exactly if no command has its name, with
2 exactly if it is a search whose arguments are rejected, and with 1 exactly if it names a file that
cannot be read. -/
theorem Session.runPipeline_reports {s : Session} (hs : s.commands = Command.all) (disk : Disk)
    (stages : List Stage) (last : Stage) (o e : Bytes) :
    let alone (stage : Stage) := s.runStage disk stage {} {}
    (∃ printed, s.runPipeline disk (.holding o e) (stages ++ [last])
      = (.holding (o ++ printed)
          (e ++ (stages ++ [last]).flatMap fun stage => (alone stage).1.err.written),
          (alone last).2)) ∧
    ∀ stage, ∃ code : ExitCode, (alone stage).2 = .ok code ∧ code.toNat ∈ [0, 1, 2, 127] ∧
      (code.toNat = 0 ↔ (alone stage).1.err.written = []) ∧
      EndsLine (alone stage).1.err.written ∧
      (code.toNat = 127 ↔ ∀ c : Command, stage.name ≠ c.name) ∧
      (code.toNat = 2 ↔
        stage.name = Command.grep.name ∧ ∃ fault, parseSearch stage.args = .error fault) ∧
      (code.toNat = 1 ↔
        ∃ name ∈ s.fileArguments stage, ∃ reason, disk (Path.join s.dir name) = .error reason) := by
  intro alone
  have herr : ∀ stage, (alone stage).1.err.written
      = reportOf s.locale (s.stageReports disk stage) := s.err_runStage disk
  have hcode : ∀ stage, (alone stage).2 = .ok (s.stageCode disk stage) := s.code_runStage disk
  refine ⟨⟨s.flow disk [] (stages ++ [last]), ?_⟩, fun stage => ⟨s.stageCode disk stage, hcode stage,
    ?_, ?_, ?_, ?_, ?_, ?_⟩⟩
  · simp only [runPipeline_holding, herr, hcode, lastCode, List.getLast?_concat, Option.elim_some,
      reportOf, List.flatMap_assoc]
  · cases s.stageCode disk stage <;> simp [ExitCode.toNat]
  · rw [herr, reportOf_eq_nil_iff, ← stageCode_eq_success_iff]
    exact ExitCode.toNat_inj _ .success
  · rw [herr]
    exact endsLine_reportOf s.locale _
  · rw [← stageCode_eq_notFound_iff hs]
    exact ExitCode.toNat_inj _ .notFound
  · rw [← stageCode_eq_usage_iff hs]
    exact ExitCode.toNat_inj _ .usage
  · rw [← stageCode_eq_failure_iff]
    exact ExitCode.toNat_inj _ .failure

/-- Three stages fail in three ways, the first with bytes that encode no text in its output; the last
one succeeds, and so does the pipeline. -/
theorem Session.runPipeline_reports_of_failing_stages :
    let s : Session := { dir := [], locale := .en }
    let disk : Disk := .ofList [("a".toList, .ok [0xFF])]
    let stages : List Stage := [⟨"cat".toList, ["a".toList, "b".toList]⟩, ⟨"x=".toList, []⟩,
      ⟨"grep".toList, ["-z".toList]⟩]
    let last : Stage := ⟨"wc".toList, []⟩
    let report := Text.utf8
      "cat: b: No such file or directory\nx: command not found\ngrep: -z: Invalid option\n".toList
    s.commands = Command.all ∧ ∃ printed,
      s.runPipeline disk (.holding [] []) (stages ++ [last])
        = (.holding printed report, .ok .success) := by
  intro s disk stages last report
  have hs : s.commands = Command.all := rfl
  obtain ⟨⟨printed, hrun⟩, -⟩ := runPipeline_reports hs disk stages last [] []
  have hreport : ((stages ++ [last]).flatMap fun stage =>
      (s.runStage disk stage {} {}).1.err.written) = report := by decide +kernel
  rw [hreport] at hrun
  exact ⟨hs, printed, hrun⟩

end PipeShell
