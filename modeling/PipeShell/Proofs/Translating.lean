import PipeShell.Proofs.Calling
import PipeShell.Proofs.Wiring

/-! # Sessions in another language

The language of a session is a matter of wording: it is looked at when a diagnostic is written out, and
nothing that has been written is read back into the session. There is one wording that gets among the
data all the same. `wc` labels a row of totals, and what it prints can flow into further stages. So two
sessions that differ in their language alone have the same bindings and the same results after every
call, report the same things in different words, and print the same bytes as long as no totals are
counted.

* **`Session.inLocale`** — the session in another language.
* **`Session.PrintsTotals`** — which stages print a wording.
* **`Session.reply_inLocale`** — a line in another language: the step.
* **`Session.replies_inLocale`** — lines one after the other: the run.
* **`Session.answer_inLocale`** — what a call writes and results in.
* **`Session.call_inLocale`** — any call, after any calls, in two languages. -/

namespace PipeShell

/-! ## Stages -/

/-- **The session in another language.** -/
def Session.inLocale (s : Session) (l : Locale) : Session := { s with locale := l }

/-- **Does a stage print a row of totals?** It counts more than one file that can be read, each as often
as it is named. -/
def Session.PrintsTotals (s : Session) (disk : Disk) (stage : Stage) : Prop :=
  stage.name = Command.wc.name ∧
    1 < stage.args.countP fun name => ((s.surroundings disk).read? name).isSome

instance (s : Session) (disk : Disk) (stage : Stage) : Decidable (s.PrintsTotals disk stage) :=
  inferInstanceAs (Decidable (_ ∧ _))

/-- There is no row of totals for a single file. -/
theorem totalRow_eq_nil {s : Surroundings} {names : List Text}
    (h : names.countP (fun name => (s.read? name).isSome) ≤ 1) : totalRow s names = [] := by
  rw [← List.length_filterMap_eq_countP] at h
  unfold totalRow
  split
  next hread => simp [hread] at h
  next => rfl

/-- **A stage that prints no totals does the same in every language.** -/
theorem Session.transcript_inLocale {s : Session} {disk : Disk} {stage : Stage}
    (h : ¬ s.PrintsTotals disk stage) (l : Locale) (input : Source) :
    (s.inLocale l).transcript disk stage input = s.transcript disk stage input := by
  have hcommand : (s.inLocale l).command? stage.name = s.command? stage.name := rfl
  unfold transcript
  rw [hcommand]
  cases hc : s.command? stage.name with
  | none => rfl
  | some c =>
    cases c with
    | echo | cat | pwd | grep => rfl
    | wc =>
      have hfew := Nat.not_lt.1 fun hmany => h ⟨name_of_command? hc, hmany⟩
      cases hargs : stage.args with
      | nil => rfl
      | cons name names =>
        rw [hargs] at hfew
        have hhere : totalRow (s.surroundings disk) (name :: names) = [] := totalRow_eq_nil hfew
        have hthere : totalRow ((s.inLocale l).surroundings disk) (name :: names) = [] :=
          totalRow_eq_nil hfew
        simp only [Command.transcript, count, hhere, hthere]
        rfl

/-- A stage that does not read its input reports and ends in the same way also if that fails. -/
theorem Session.reports_transcript_of_not_readsInput {stage : Stage} (h : ¬ stage.ReadsInput)
    (s : Session) (disk : Disk) (input : Source) :
    (s.transcript disk stage input).Reports (s.stageReports disk stage) (s.stageCode disk stage) := by
  rw [s.transcript_of_not_readsInput h disk input {}]
  exact s.reports_transcript disk stage []

/-- Only a stage that names files prints totals, and such a stage does not read its input. -/
theorem Session.PrintsTotals.not_readsInput {s : Session} {disk : Disk} {stage : Stage}
    (h : s.PrintsTotals disk stage) : ¬ stage.ReadsInput := by
  obtain ⟨hname, hmany⟩ := h
  rintro (⟨-, hargs⟩ | ⟨hgrep, -⟩)
  · simp [hargs] at hmany
  · exact absurd (hname.symm.trans hgrep) (by decide)

/-- **A stage reports and ends in the same way in every language**, also if its input fails. -/
theorem Session.reply_transcript_inLocale (s : Session) (l : Locale) (disk : Disk) (stage : Stage)
    (input : Source) :
    let here := (s.transcript disk stage input).reply stage.name
    let there := ((s.inLocale l).transcript disk stage input).reply stage.name
    there.diagnostics = here.diagnostics ∧ there.code = here.code := by
  intro here there
  by_cases htotals : s.PrintsTotals disk stage
  · -- the totals are among the output alone, and the input of such a stage does not matter
    have hhere := s.reports_transcript_of_not_readsInput htotals.not_readsInput disk input
    have hthere := (s.inLocale l).reports_transcript_of_not_readsInput htotals.not_readsInput disk input
    simp only [here, there, hhere.reply_eq, hthere.reply_eq]
    exact ⟨rfl, rfl⟩
  · simp only [here, there, transcript_inLocale htotals l input, and_self]

/-! ## Lines -/

/-- What flows through stages that print no totals is the same in every language. -/
theorem Session.flow_inLocale {s : Session} {disk : Disk} {stages : List Stage}
    (h : ∀ stage ∈ stages, ¬ s.PrintsTotals disk stage) (l : Locale) (data : Bytes) :
    (s.inLocale l).flow disk data stages = s.flow disk data stages := by
  induction stages generalizing data with
  | nil => rfl
  | cons stage stages ih =>
    obtain ⟨hstage, hstages⟩ := List.forall_mem_cons.1 h
    have houtput : (s.inLocale l).stageOutput disk stage data = s.stageOutput disk stage data := by
      rw [stageOutput, transcript_inLocale hstage, stageOutput]
    rw [flow_cons, flow_cons, houtput, ih hstages]

/-- The stages that a line runs; a line that is rejected runs none. -/
def Session.lineStages (s : Session) (line : Text) : List Stage :=
  match planLine s.store line with
  | .ok p => p.stages
  | .error _ => []

/-- **A line in another language** reports and ends as it does in this one, and prints the same if none
of its stages prints totals. -/
theorem Session.reply_inLocale (s : Session) (l : Locale) (disk : Disk) (line : Text) :
    let here := (s.reply disk line).1
    let there := ((s.inLocale l).reply disk line).1
    there.diagnostics = here.diagnostics ∧ there.code = here.code ∧
      ((∀ stage ∈ s.lineStages line, ¬ s.PrintsTotals disk stage) → there.output = here.output) := by
  have hplan : planLine (s.inLocale l).store line = planLine s.store line := rfl
  simp only [reply, lineStages, hplan]
  cases planLine s.store line with
  | error reason => exact ⟨rfl, rfl, fun _ => rfl⟩
  | ok p =>
    simp only [pipelineReply_eq]
    exact ⟨rfl, rfl, fun htotals => flow_inLocale htotals l []⟩

/-- The session after a line differs in its language alone. -/
theorem Session.afterLine_inLocale (s : Session) (l : Locale) (line : Text) :
    (s.inLocale l).afterLine line = (s.afterLine line).inLocale l := by
  rw [afterLine_eq, afterLine_eq]
  rfl

/-- The session after some lines differs in its language alone. -/
theorem Session.foldl_afterLine_inLocale (s : Session) (l : Locale) (lines : List Text) :
    lines.foldl afterLine (s.inLocale l) = (lines.foldl afterLine s).inLocale l := by
  rw [foldl_afterLine_eq, foldl_afterLine_eq]
  rfl

/-- Lines do not change the language. -/
theorem Session.locale_afterLine (s : Session) (line : Text) :
    (s.afterLine line).locale = s.locale := by
  rw [afterLine_eq]

/-- Lines have no part in which stages print totals. -/
theorem Session.printsTotals_afterLine (s : Session) (line : Text) (disk : Disk) (stage : Stage) :
    (s.afterLine line).PrintsTotals disk stage ↔ s.PrintsTotals disk stage := by
  rw [afterLine_eq]
  rfl

/-! ## Lines one after the other -/

/-- **What some lines do**, each in the session that those before it leave. -/
def Session.replies (disk : Disk) : Session → List Text → List Reply
  | _, [] => []
  | s, line :: rest => (s.reply disk line).1 :: (s.afterLine line).replies disk rest

/-- The stages that some lines run, one line after the other. -/
def Session.stagesOfLines : Session → List Text → List Stage
  | _, [] => []
  | s, line :: rest => s.lineStages line ++ (s.afterLine line).stagesOfLines rest

/-- **Lines on outputs without limits** leave what their replies say. -/
theorem Session.submitAll_replies (disk : Disk) (s : Session) (o e : Bytes) (lines : List Text) :
    s.submitAll disk (.holding o e) lines
      = ⟨lines.foldl afterLine s,
          .holding (o ++ (s.replies disk lines).flatMap Reply.output)
            (e ++ reportOf s.locale ((s.replies disk lines).flatMap Reply.diagnostics)),
          .ok ()⟩ := by
  induction lines generalizing s o e with
  | nil => simp [replies]
  | cons line rest ih =>
    simp only [submitAll_holding_cons, ih, replies, List.flatMap_cons, List.foldl_cons,
      locale_afterLine, reportOf_append, List.append_assoc]

/-- **Lines in another language**, by induction on the lines. -/
theorem Session.replies_inLocale (s : Session) (l : Locale) (disk : Disk) (lines : List Text) :
    let here := s.replies disk lines
    let there := (s.inLocale l).replies disk lines
    there.flatMap Reply.diagnostics = here.flatMap Reply.diagnostics ∧
      ((∀ stage ∈ s.stagesOfLines lines, ¬ s.PrintsTotals disk stage) →
        there.flatMap Reply.output = here.flatMap Reply.output) := by
  induction lines generalizing s with
  | nil => exact ⟨rfl, fun _ => rfl⟩
  | cons line rest ih =>
    obtain ⟨hline, -, hprinted⟩ := s.reply_inLocale l disk line
    obtain ⟨hrest, hrestPrinted⟩ := ih (s.afterLine line)
    simp only [replies, stagesOfLines, List.flatMap_cons, afterLine_inLocale, hline, hrest, true_and]
    intro htotals
    obtain ⟨hfirst, hothers⟩ := List.forall_mem_append.1 htotals
    simp only [← s.printsTotals_afterLine line disk] at hothers
    rw [hprinted hfirst, hrestPrinted hothers]

/-! ## Calls -/

/-- **Do the outputs of a call accept everything?** -/
def Call.Unlimited (c : Call) : Prop := c.sinks.out.limit = none ∧ c.sinks.err.limit = none

instance (c : Call) : Decidable c.Unlimited := inferInstanceAs (Decidable (_ ∧ _))

/-- Such outputs only hold what has been written to them. -/
theorem Call.Unlimited.exists_holding {c : Call} (h : c.Unlimited) :
    ∃ request disk o e, c = ⟨request, disk, .holding o e⟩ := by
  obtain ⟨request, disk, ⟨⟨outLimit, o⟩, ⟨errLimit, e⟩⟩⟩ := c
  obtain ⟨rfl, rfl⟩ := h
  exact ⟨request, disk, o, e, rfl⟩

/-- **What comes of a call** on outputs that accept everything. -/
structure Answer where
  diagnostics : List Diagnostic
  output : Bytes
  result : Except StreamFailure (Option ExitCode)

/-- The answer to what is asked of a session. -/
def Session.answer (s : Session) (disk : Disk) : Call.Request → Answer
  | .line text =>
    let r := (s.reply disk text).1
    ⟨r.diagnostics, r.output, .ok (some r.code)⟩
  | .script src =>
    let rs := s.replies disk src.commandLines
    ⟨rs.flatMap Reply.diagnostics, rs.flatMap Reply.output,
      if src.fails then .error ⟨some .readingCommandLine, .sourceFailed⟩ else .ok none⟩
  | .stage stage input =>
    let r := (s.transcript disk stage input).reply stage.name
    ⟨r.diagnostics, r.output, .ok (some r.code)⟩

/-- The lines that are asked for. -/
def Call.Request.lines : Call.Request → List Text
  | .line text => [text]
  | .script src => src.commandLines
  | .stage _ _ => []

/-- The stages that a request runs on outputs that accept everything. -/
def Session.callStages (s : Session) : Call.Request → List Stage
  | .stage stage _ => [stage]
  | request => s.stagesOfLines request.lines

/-- **A call on outputs that accept everything** gets to all its lines and writes its answer, the
diagnostics in the language of the session. -/
theorem Session.call_holding (s : Session) (request : Call.Request) (disk : Disk) (o e : Bytes) :
    s.call ⟨request, disk, .holding o e⟩
      = ⟨request.lines.foldl afterLine s,
          .holding (o ++ (s.answer disk request).output)
            (e ++ reportOf s.locale (s.answer disk request).diagnostics),
          (s.answer disk request).result⟩ := by
  cases request with
  | line text =>
    simp only [call, submit_holding]
    rfl
  | script src =>
    simp only [call, run, submitAll_replies, answer]
    cases src.fails <;> rfl
  | stage stage input =>
    simp only [call, runStage, Transcript.perform_holding]
    rfl

/-- The answer in another language. -/
theorem Session.answer_inLocale (s : Session) (l : Locale) (disk : Disk) (request : Call.Request) :
    let here := s.answer disk request
    let there := (s.inLocale l).answer disk request
    there.diagnostics = here.diagnostics ∧ there.result = here.result ∧
      ((∀ stage ∈ s.callStages request, ¬ s.PrintsTotals disk stage) → there.output = here.output) := by
  cases request with
  | line text =>
    obtain ⟨hdiagnostics, hcode, hprinted⟩ := s.reply_inLocale l disk text
    refine ⟨hdiagnostics, by simp only [answer, hcode], fun htotals => hprinted ?_⟩
    simpa [callStages, Call.Request.lines, stagesOfLines] using htotals
  | script src =>
    obtain ⟨hdiagnostics, hprinted⟩ := s.replies_inLocale l disk src.commandLines
    exact ⟨hdiagnostics, rfl, hprinted⟩
  | stage stage input =>
    obtain ⟨hdiagnostics, hcode⟩ := s.reply_transcript_inLocale l disk stage input
    refine ⟨hdiagnostics, by simp only [answer, hcode], fun htotals => ?_⟩
    simp only [answer, transcript_inLocale (htotals stage List.mem_cons_self) l input]

/-- **Calls in another language** leave the session in that language. -/
theorem Session.afterCalls_inLocale (s : Session) (l : Locale) {calls : List Call}
    (h : ∀ c ∈ calls, c.Unlimited) :
    (s.inLocale l).afterCalls calls = (s.afterCalls calls).inLocale l := by
  induction calls generalizing s with
  | nil => rfl
  | cons c calls ih =>
    obtain ⟨hc, hcalls⟩ := List.forall_mem_cons.1 h
    obtain ⟨request, disk, o, e, rfl⟩ := hc.exists_holding
    simp only [afterCalls_cons, call_holding, foldl_afterLine_inLocale, ih _ hcalls]

/-- **The language changes nothing but wordings.** Take two sessions that differ in their language alone,
and the same calls of each, with the same files and with outputs that accept everything. After every
call the bindings are the same and the call has the same result; it has reported something in one
language if and only if it has in the other; and it has printed the same bytes, unless one of the
stages it runs counts more than one file that can be read. -/
theorem Session.call_inLocale (s : Session) (l : Locale) (before : List Call) (c : Call)
    (h : ∀ b ∈ before ++ [c], b.Unlimited) :
    let here := s.afterCalls before
    let one := here.call c
    let other := ((s.inLocale l).afterCalls before).call c
    other.session.store = one.session.store ∧ other.result = one.result ∧
      (other.sinks.err = c.sinks.err ↔ one.sinks.err = c.sinks.err) ∧
      ((∀ stage ∈ here.callStages c.request, ¬ here.PrintsTotals c.disk stage) →
        other.sinks.out = one.sinks.out) := by
  obtain ⟨hbefore, hc⟩ := List.forall_mem_append.1 h
  obtain ⟨request, disk, o, e, rfl⟩ := (hc c List.mem_cons_self).exists_holding
  rw [afterCalls_inLocale s l hbefore]
  generalize s.afterCalls before = here
  obtain ⟨hdiagnostics, hresult, hprinted⟩ := here.answer_inLocale l disk request
  simp only [call_holding, foldl_afterLine_inLocale, hdiagnostics, hresult]
  refine ⟨rfl, trivial, ?_, fun htotals => by rw [hprinted htotals]; rfl⟩
  simp [Sinks.holding, reportOf_eq_nil_iff]

/-- A file that cannot be read is reported in two languages, after a binding and a line that is rejected;
the counts of the other file are the same. Counting that one twice prints a row of totals, which is
not. -/
theorem Session.call_inLocale_of_unreadable_file :
    let s : Session := { dir := [], locale := .ru }
    let disk : Disk := .ofList [("f".toList, .ok (Text.utf8 "a b\n".toList))]
    let before : List Call := [⟨.script { data := Text.utf8 "x=f\n'\n".toList }, disk, {}⟩]
    let c : Call := ⟨.line "y=g wc $x g | grep -A1 1".toList, disk, {}⟩
    let totals : Call := ⟨.stage ⟨"wc".toList, ["f".toList, "f".toList]⟩ {}, disk, {}⟩
    let here := s.afterCalls before
    let there := (s.inLocale .en).afterCalls before
    (∀ b ∈ before ++ [c], b.Unlimited) ∧
      (∀ stage ∈ here.callStages c.request, ¬ here.PrintsTotals c.disk stage) ∧
      (there.call c).session.store = (here.call c).session.store ∧
      (there.call c).result = (here.call c).result ∧
      (there.call c).sinks.out = (here.call c).sinks.out ∧
      (here.call c).sinks.out.written = Text.utf8 " 1\t2\t4 f\n".toList ∧
      (there.call c).sinks.err.written = Text.utf8 "wc: g: No such file or directory\n".toList ∧
      (there.call c).sinks.err ≠ (here.call c).sinks.err ∧
      (there.call totals).sinks.out ≠ (here.call totals).sinks.out := by
  intro s disk before c totals
  have hunlimited : ∀ b ∈ before ++ [c], b.Unlimited :=
    List.forall_mem_cons.2 ⟨⟨rfl, rfl⟩, List.forall_mem_singleton.2 ⟨rfl, rfl⟩⟩
  have hfew : ∀ stage ∈ (s.afterCalls before).callStages c.request,
      ¬ (s.afterCalls before).PrintsTotals c.disk stage := by decide +kernel
  obtain ⟨hstore, hresult, -, hprinted⟩ := s.call_inLocale .en before c hunlimited
  exact ⟨hunlimited, hfew, hstore, hresult, hprinted hfew, by decide +kernel, by decide +kernel,
    by decide +kernel, by decide +kernel⟩

end PipeShell
