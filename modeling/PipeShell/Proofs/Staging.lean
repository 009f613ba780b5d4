import PipeShell.Session

/-! # Running the stages of a line one after the other

`Session.submit` works out what a line does and then writes it. A shell runs the stages as they come:
each prints into memory and reports straight to the session, a refused write is reported by the
command that met it, and only the output of the last stage goes to the session. On no outputs can the
two be told apart.

* **`reportOf`** — the bytes of some diagnostics.
* **`Session.submit_eq`** — what `submit` leaves on arbitrary outputs.
* **`Transcript.performCatching`** — a command that reports a refused write, whichever output refused.
* **`Session.runStages`**, **`Session.execute`** — a pipeline and a line, executed stage by stage.
* **`Session.runPipeline`** — the part of `execute` that is left when a line has been planned.
* **`Session.execute_eq_submit`** — executing stage by stage leaves the same as `submit`. -/

namespace PipeShell

/-! ## Diagnostics -/

/-- **The bytes of some diagnostics.** -/
def reportOf (l : Locale) (ds : List Diagnostic) : Bytes := ds.flatMap (Diagnostic.line l)

@[simp] theorem reportOf_nil (l : Locale) : reportOf l [] = [] := rfl

@[simp] theorem reportOf_cons (l : Locale) (d : Diagnostic) (ds : List Diagnostic) :
    reportOf l (d :: ds) = d.line l ++ reportOf l ds := rfl

theorem reportOf_append (l : Locale) (ds es : List Diagnostic) :
    reportOf l (ds ++ es) = reportOf l ds ++ reportOf l es := List.flatMap_append

/-- A sink that has refused a write takes nothing more. -/
theorem Sink.push_of_refused {s : Sink} {data : Bytes} (h : s.accepts data = false) (more : Bytes) :
    (s.push data).push more = s.push data := by
  cases s with
  | mk limit written =>
    cases limit with
    | none => cases h
    | some n =>
      have hfull : n - written.length < data.length := by simpa [accepts] using h
      rw [← push_append]
      simp only [push, List.take_append_of_le_length (Nat.le_of_lt hfull)]

/-- Diagnostics are written one by one as if they were written at once, and do not touch the other
output. -/
theorem Sinks.play_map_err (l : Locale) (o e : Sink) (ds : List Diagnostic) (ws : List Write) :
    Sinks.play l ⟨o, e⟩ (ds.map .err ++ ws)
      = if e.accepts (reportOf l ds) then Sinks.play l ⟨o, e.push (reportOf l ds)⟩ ws
        else (⟨o, e.push (reportOf l ds)⟩, some .err) := by
  induction ds generalizing e with
  | nil => simp
  | cons d ds ih =>
    have hstep : Sinks.play l ⟨o, e⟩ (.err d :: (ds.map .err ++ ws))
        = if e.accepts (d.line l) then Sinks.play l ⟨o, e.push (d.line l)⟩ (ds.map .err ++ ws)
          else (⟨o, e.push (d.line l)⟩, some .err) := rfl
    rw [List.map_cons, List.cons_append, hstep, reportOf_cons, Sink.accepts_append, Sink.push_append]
    cases hfits : e.accepts (d.line l) with
    | true => rw [if_pos rfl, ih, Bool.true_and]
    | false => simp [Sink.push_of_refused hfits]

/-- The report of a failure is one diagnostic. -/
theorem Sinks.report_eq (l : Locale) (cmd : Text) (f : StreamFailure) (o e : Sink) :
    Sinks.report l cmd f ⟨o, e⟩
      = (⟨o, e.push (Diagnostic.line l (.streamFailed cmd f))⟩,
          if e.accepts (Diagnostic.line l (.streamFailed cmd f)) then .ok .failure
          else .error .sinkFull) := by
  have hplay := play_map_err l o e [.streamFailed cmd f] []
  rw [List.append_nil, List.map_singleton, reportOf_cons, reportOf_nil, List.append_nil] at hplay
  rw [report, hplay]
  cases e.accepts (Diagnostic.line l (.streamFailed cmd f)) <;> simp

/-- The writes of a line: its diagnostics, and its output if they fit. -/
theorem Sinks.play_writes (l : Locale) (o e : Sink) (r : Reply) :
    Sinks.play l ⟨o, e⟩ r.writes
      = if e.accepts (reportOf l r.diagnostics) then
          (⟨o.push r.output, e.push (reportOf l r.diagnostics)⟩,
            if o.accepts r.output then none else some .out)
        else (⟨o, e.push (reportOf l r.diagnostics)⟩, some .err) := by
  have hout : ∀ e : Sink, Sinks.play l ⟨o, e⟩ [.out r.output]
      = (⟨o.push r.output, e⟩, if o.accepts r.output then none else some .out) := by
    intro e
    rw [play_cons]
    cases hfits : o.accepts r.output <;> simp [accepts, push, hfits, Write.channel]
  rw [Reply.writes, play_map_err, hout]

/-- **Submitting a line**, in terms of what it prints and reports. -/
theorem Session.submit_eq (disk : Disk) (s : Session) (o e : Sink) (line : Text) :
    s.submit disk ⟨o, e⟩ line
      = if e.accepts (reportOf s.locale (s.reply disk line).1.diagnostics) then
          ⟨s.afterLine line,
            ⟨o.push (s.reply disk line).1.output,
              e.push (reportOf s.locale (s.reply disk line).1.diagnostics)⟩,
            if o.accepts (s.reply disk line).1.output then .ok (s.reply disk line).1.code
            else .error .sinkFull⟩
        else
          ⟨s.afterLine line, ⟨o, e.push (reportOf s.locale (s.reply disk line).1.diagnostics)⟩,
            .error .sinkFull⟩ := by
  simp only [submit, Sinks.play_writes, ← s.reply_snd disk line]
  cases e.accepts (reportOf s.locale (s.reply disk line).1.diagnostics) with
  | false => simp
  | true => cases hout : o.accepts (s.reply disk line).1.output <;> simp

/-! ## Outputs in memory -/

/-- What a command prints into memory is never refused, so only its diagnostics can stop it. -/
theorem Sinks.play_memory (l : Locale) (o : Bytes) (e : Sink) (ws : List Write) :
    ∃ printed : Sink, Sinks.play l ⟨{ written := o }, e⟩ ws
      = if e.accepts (reportOf l (ws.filterMap Write.diagnostic?)) then
          (⟨{ written := o ++ ws.flatMap Write.output },
            e.push (reportOf l (ws.filterMap Write.diagnostic?))⟩, none)
        else (⟨printed, e.push (reportOf l (ws.filterMap Write.diagnostic?))⟩, some .err) := by
  induction ws generalizing o e with
  | nil => exact ⟨{}, by simp⟩
  | cons w ws ih =>
    cases w with
    | out data =>
      obtain ⟨printed, hrest⟩ := ih (o ++ data) e
      have hstep : Sinks.play l ⟨{ written := o }, e⟩ (.out data :: ws)
          = Sinks.play l ⟨{ written := o ++ data }, e⟩ ws := rfl
      refine ⟨printed, ?_⟩
      rw [hstep, hrest, List.filterMap_cons_none rfl, List.flatMap_cons, List.append_assoc]
      rfl
    | err d =>
      have hstep : Sinks.play l ⟨{ written := o }, e⟩ (.err d :: ws)
          = if e.accepts (d.line l) then Sinks.play l ⟨{ written := o }, e.push (d.line l)⟩ ws
            else (⟨{ written := o }, e.push (d.line l)⟩, some .err) := rfl
      have hdiagnostics : (Write.err d :: ws).filterMap Write.diagnostic?
          = d :: ws.filterMap Write.diagnostic? := rfl
      rw [hstep, hdiagnostics, reportOf_cons, Sink.accepts_append, Sink.push_append]
      cases hfits : e.accepts (d.line l) with
      | true =>
        obtain ⟨printed, hrest⟩ := ih o (e.push (d.line l))
        refine ⟨printed, ?_⟩
        rw [if_pos rfl, hrest, Bool.true_and]
        rfl
      | false => exact ⟨{ written := o }, by simp [Sink.push_of_refused hfits]⟩

/-- A command that prints into memory does what it does on outputs that do not fail, as far as its
diagnostics fit. -/
theorem Transcript.perform_memory (l : Locale) (cmd : Text) (t : Transcript) (e : Sink) :
    ∃ printed : Sink, t.perform l cmd ⟨{}, e⟩
      = if e.accepts (reportOf l (t.reply cmd).diagnostics) then
          (⟨{ written := (t.reply cmd).output }, e.push (reportOf l (t.reply cmd).diagnostics)⟩,
            .ok (t.reply cmd).code)
        else (⟨printed, e.push (reportOf l (t.reply cmd).diagnostics)⟩, .error .sinkFull) := by
  obtain ⟨printed, hplay⟩ := Sinks.play_memory l [] e t.writes
  refine ⟨if e.accepts (reportOf l (t.writes.filterMap Write.diagnostic?))
    then { written := t.writes.flatMap Write.output } else printed, ?_⟩
  rw [perform, hplay]
  cases hending : t.ending with
  | ok code =>
    have hreply : t.reply cmd = { output := t.writes.flatMap Write.output,
                                  diagnostics := t.writes.filterMap Write.diagnostic?,
                                  code := code } := by
      simp [reply, hending]
    rw [hreply]
    cases hfits : e.accepts (reportOf l (t.writes.filterMap Write.diagnostic?)) <;> simp
  | error f =>
    have hreply : t.reply cmd = { output := t.writes.flatMap Write.output,
                                  diagnostics := t.writes.filterMap Write.diagnostic? ++
                                    [.streamFailed cmd f],
                                  code := .failure } := by
      simp [reply, hending]
    rw [hreply, reportOf_append, Sink.accepts_append, Sink.push_append]
    cases hfits : e.accepts (reportOf l (t.writes.filterMap Write.diagnostic?)) with
    | false => simp [Sink.push_of_refused hfits]
    | true =>
      cases hreport : (e.push (reportOf l (t.writes.filterMap Write.diagnostic?))).accepts
        (Diagnostic.line l (.streamFailed cmd f)) <;> simp [Sinks.report_eq, hreport]

/-! ## A refused write is reported where it was refused -/

/-- A sink that has refused a write refuses every other one. -/
theorem Sink.accepts_of_refused {s : Sink} {data more : Bytes} (h : s.accepts data = false)
    (hmore : more ≠ []) : (s.push data).accepts more = false := by
  cases s with
  | mk limit written =>
    cases limit with
    | none => cases h
    | some n =>
      have hfull : n - written.length < data.length := by simpa [accepts] using h
      have hpos : 0 < more.length := List.length_pos_iff.2 hmore
      simp only [accepts, push, List.length_append, List.length_take, decide_eq_false_iff_not]
      omega

/-- The report of a failure of the output for diagnostics is refused too. -/
theorem Sinks.report_of_play {l : Locale} {s s' : Sinks} {ws : List Write}
    (h : s.play l ws = (s', some .err)) (cmd : Text) (f : StreamFailure) :
    s'.report l cmd f = (s', .error .sinkFull) := by
  induction ws generalizing s with
  | nil => cases h
  | cons w ws ih =>
    rw [play_cons] at h
    split at h
    · exact ih h
    next hrefused =>
      cases w with
      | out data => cases h
      | err d =>
        obtain ⟨rfl, -⟩ := Prod.mk.inj h
        have hrefused : s.err.accepts (d.line l) = false := by simpa [accepts] using hrefused
        have hnext := Sink.accepts_of_refused hrefused
          (Diagnostic.line_ne_nil l (.streamFailed cmd f))
        have hpush : s.push l (.err d) = ⟨s.out, s.err.push (d.line l)⟩ := rfl
        rw [hpush, report_eq, Sink.push_of_refused hrefused, hnext]
        rfl

/-- **Perform a command that reports a refused write**, also when it is the output for diagnostics that
has refused. -/
def Transcript.performCatching (l : Locale) (cmd : Text) (t : Transcript) (s : Sinks) :
    Sinks × Except StreamFailure ExitCode :=
  match s.play l t.writes with
  | (s, some _) => s.report l cmd ⟨t.during, .sinkFull⟩
  | (s, none) =>
    match t.ending with
    | .ok code => (s, .ok code)
    | .error f => s.report l cmd f

/-- A report to the output that has just refused makes no difference. -/
theorem Transcript.performCatching_eq (l : Locale) (cmd : Text) (t : Transcript) (s : Sinks) :
    t.performCatching l cmd s = t.perform l cmd s := by
  unfold performCatching perform
  cases hplay : s.play l t.writes with
  | mk s' refused =>
    cases refused with
    | none => rfl
    | some c =>
      cases c with
      | out => rfl
      | err => exact Sinks.report_of_play hplay cmd _

/-! ## Stages -/

/-- **Run stages one after the other**, from what the stages before them have printed and the code of
the last of those. Each prints into memory; its diagnostics go where all of them go. -/
def Session.runStages (s : Session) (disk : Disk) : Bytes → ExitCode → Sink → List Stage →
    Sink × Except StreamFailure (Bytes × ExitCode)
  | printed, code, err, [] => (err, .ok (printed, code))
  | printed, _, err, stage :: rest =>
    match (s.transcript disk stage { data := printed }).performCatching s.locale stage.name
        ⟨{}, err⟩ with
    | (sinks, .ok code) => s.runStages disk sinks.out.written code sinks.err rest
    | (sinks, .error f) => (sinks.err, .error f)

/-- **Execute a line stage by stage.** -/
def Session.execute (disk : Disk) (s : Session) (sinks : Sinks) (line : Text) : Outcome ExitCode :=
  match planLine s.store line with
  | .error reason =>
    let message := Diagnostic.line s.locale (.rejected reason)
    ⟨s, { sinks with err := sinks.err.push message },
      if sinks.err.accepts message then .ok .usage else .error .sinkFull⟩
  | .ok p =>
    let after : Session := { s with store := p.store }
    match after.runStages disk [] .success sinks.err p.stages with
    | (err, .error f) => ⟨after, { sinks with err := err }, .error f⟩
    | (err, .ok (printed, code)) =>
      ⟨after, ⟨sinks.out.push printed, err⟩,
        if sinks.out.accepts printed then .ok code else .error .sinkFull⟩

/-- **Run a pipeline**: its stages one after the other, and then what the last of them has printed is
written. -/
def Session.runPipeline (s : Session) (disk : Disk) (sinks : Sinks) (stages : List Stage) :
    Sinks × Except StreamFailure ExitCode :=
  match s.runStages disk [] .success sinks.err stages with
  | (err, .error f) => ({ sinks with err := err }, .error f)
  | (err, .ok (printed, code)) =>
    (⟨sinks.out.push printed, err⟩, if sinks.out.accepts printed then .ok code else .error .sinkFull)

/-- A line that is not rejected runs its pipeline, with the bindings that it has made. -/
theorem Session.execute_of_planLine {s : Session} {line : Text} {p : Plan}
    (h : planLine s.store line = .ok p) (disk : Disk) (sinks : Sinks) :
    s.execute disk sinks line
      = (let after : Session := { s with store := p.store }
        let ran := after.runPipeline disk sinks p.stages
        ⟨after, ran.1, ran.2⟩) := by
  rw [execute, h]
  simp only [runPipeline]
  split <;> simp_all

/-- A stage adds to the diagnostics of the stages before it. -/
theorem Session.exists_diagnostics_foldl (s : Session) (disk : Disk) (before : Reply)
    (stages : List Stage) :
    ∃ more, (stages.foldl (s.stageReply disk) before).diagnostics = before.diagnostics ++ more := by
  induction stages generalizing before with
  | nil => exact ⟨[], by simp⟩
  | cons stage stages ih =>
    obtain ⟨more, hmore⟩ := ih (s.stageReply disk before stage)
    exact ⟨_, hmore.trans (List.append_assoc _ _ _)⟩

/-- **Stages run one after the other do what the pipeline does**, up to the first diagnostic that does
not fit. -/
theorem Session.runStages_eq (s : Session) (disk : Disk) (before : Reply) (e : Sink)
    (h : e.accepts (reportOf s.locale before.diagnostics) = true) (stages : List Stage) :
    s.runStages disk before.output before.code (e.push (reportOf s.locale before.diagnostics)) stages
      = (e.push (reportOf s.locale (stages.foldl (s.stageReply disk) before).diagnostics),
          if e.accepts (reportOf s.locale (stages.foldl (s.stageReply disk) before).diagnostics) then
            .ok ((stages.foldl (s.stageReply disk) before).output,
              (stages.foldl (s.stageReply disk) before).code)
          else .error .sinkFull) := by
  induction stages generalizing before with
  | nil => rw [List.foldl_nil, h, runStages, if_pos rfl]
  | cons stage stages ih =>
    obtain ⟨printed, hperform⟩ := (s.transcript disk stage { data := before.output }).perform_memory
      s.locale stage.name (e.push (reportOf s.locale before.diagnostics))
    have hnext : (s.stageReply disk before stage).diagnostics = before.diagnostics ++
        ((s.transcript disk stage { data := before.output }).reply stage.name).diagnostics := rfl
    have haccepts := Sink.accepts_append e (reportOf s.locale before.diagnostics) (reportOf s.locale
      ((s.transcript disk stage { data := before.output }).reply stage.name).diagnostics)
    rw [← reportOf_append, ← hnext, h, Bool.true_and] at haccepts
    rw [← Sink.push_append, ← reportOf_append, ← hnext, ← haccepts] at hperform
    rw [runStages, Transcript.performCatching_eq, hperform, List.foldl_cons]
    cases hfits : e.accepts (reportOf s.locale (s.stageReply disk before stage).diagnostics) with
    | true => exact ih (s.stageReply disk before stage) hfits
    | false =>
      -- the stages that follow would only add to what does not fit already
      obtain ⟨more, hmore⟩ := s.exists_diagnostics_foldl disk (s.stageReply disk before stage) stages
      rw [hmore, reportOf_append, Sink.accepts_append, Sink.push_append, hfits,
        Sink.push_of_refused hfits]
      rfl

/-- **A line executed stage by stage is submitted**: the outputs, the session and the result are the
same, whatever the limits of the outputs are. -/
theorem Session.execute_eq_submit (disk : Disk) (s : Session) (sinks : Sinks) (line : Text) :
    s.execute disk sinks line = s.submit disk sinks line := by
  obtain ⟨o, e⟩ := sinks
  rw [submit_eq, reply, afterLine]
  cases hplan : planLine s.store line with
  | error reason =>
    rw [execute, hplan]
    cases hfits : e.accepts (Diagnostic.line s.locale (.rejected reason)) <;> simp [hfits]
  | ok p =>
    have hstages := Session.runStages_eq { s with store := p.store } disk {} e (by simp) p.stages
    -- no command looks at the bindings
    have hsame : Session.stageReply { s with store := p.store } disk = s.stageReply disk := rfl
    rw [hsame, ← pipelineReply, reportOf_nil, Sink.push_nil] at hstages
    simp only [execute_of_planLine hplan, runPipeline] at hstages ⊢
    rw [hstages]
    cases e.accepts (reportOf s.locale (s.pipelineReply disk p.stages).diagnostics) <;> rfl

end PipeShell
