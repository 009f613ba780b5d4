import PipeShell.Proofs.Confining
import PipeShell.Proofs.Encoding
import PipeShell.Proofs.Reporting

/-! # One line for each diagnostic

A diagnostic quotes what stands in a line or in a binding, and a line feed in it would break it in two.
The lines of a script have none, so none gets into a binding either, and whatever a script does, what it
writes to the output for diagnostics has as many lines as there is to report.

* **`Bytes.over_lossyText`** — bytes without a line feed have a text without one.
* **`Diagnostic.Over`** — the texts that a diagnostic quotes have a property; `count_reportOf` is the
  number of lines of diagnostics without line feeds.
* **`Session.over_stageReports`** — a stage quotes its name and its arguments only.
* **`Session.stageFaults`**, **`Session.lineFaults`**, **`Session.faults`** — how much there is to
  report.
* **`Session.run_one_line_per_diagnostic`** — the bindings and the diagnostics of a script. -/

namespace PipeShell

/-! ## Line feeds -/

/-- Only one character is encoded with a line feed. -/
theorem lineFeed_mem_utf8EncodeChar_iff {c : Char} :
    lineFeed ∈ String.utf8EncodeChar c ↔ c = '\n' := by
  refine ⟨fun h => ?_, fun h => by rw [h]; decide⟩
  have hbytes : Text.utf8 [c] = Text.utf8 ['\n'] := by
    have hsingle := utf8EncodeChar_eq_singleton (by decide) h
    simp only [Text.utf8_cons, Text.utf8_nil, List.append_nil, hsingle]
    rfl
  have hread := congrArg Bytes.lossyText hbytes
  rw [Bytes.lossyText_utf8, Bytes.lossyText_utf8] at hread
  exact (List.cons.inj hread).1

/-- A text without line feeds is encoded without line feeds. -/
theorem lineFeed_not_mem_utf8 {t : Text} (h : '\n' ∉ t) : lineFeed ∉ t.utf8 := by
  intro hmem
  obtain ⟨c, hc, hbyte⟩ := List.mem_flatMap.1 hmem
  exact h (lineFeed_mem_utf8EncodeChar_iff.1 hbyte ▸ hc)

/-- **Bytes without line feeds have a text without line feeds**, whatever they encode. -/
theorem Bytes.over_lossyText {bs : Bytes} (h : lineFeed ∉ bs) :
    Text.Over (· ≠ '\n') bs.lossyText := by
  intro c hc
  obtain ⟨piece, hpiece, rfl⟩ := List.mem_map.1 hc
  cases piece with
  | stray strays => exact (by decide : Char.ofNat 0xFFFD ≠ '\n')
  | char c =>
    rintro rfl
    -- the bytes of the piece are among those of the string
    rw [← flatMap_bytes_pieces bs] at h
    exact h (List.mem_flatMap.2 ⟨.char '\n', hpiece, by decide⟩)

/-- **No command line of a script has a line feed.** -/
theorem over_of_mem_commandLines {script : Bytes} {line : Text}
    (h : line ∈ Source.commandLines { data := script }) : Text.Over (· ≠ '\n') line := by
  obtain ⟨bytes, hbytes, rfl⟩ := List.mem_map.1 h
  refine Bytes.over_lossyText fun hmem => ?_
  exact Bytes.lineFeed_not_mem_of_mem_lines hbytes (dropCarriageReturn_subset bytes hmem)

/-! ## The lines of diagnostics -/

/-- The texts that a diagnostic quotes. The rest of it is fixed. -/
def Diagnostic.quoted : Diagnostic → List Text
  | .unknownCommand cmd => [cmd]
  | .unreadable cmd name => [cmd, name]
  | .badCount cmd => [cmd]
  | .unknownOption cmd flag => [cmd, flag]
  | .noPattern cmd => [cmd]
  | .rejected _ => []
  | .streamFailed cmd _ => [cmd]

/-- **Have all characters that a diagnostic quotes the property?** -/
def Diagnostic.Over (p : Char → Prop) (d : Diagnostic) : Prop := ∀ t ∈ d.quoted, Text.Over p t

/-- A wording has no line feed if it has none in any language. -/
theorem Locale.newline_not_mem_choose {l : Locale} {ru en : String} (hru : '\n' ∉ ru.toList)
    (hen : '\n' ∉ en.toList) : '\n' ∉ l.choose ru en := by
  cases l with
  | ru => exact hru
  | en => exact hen

/-- No reason for a rejection has a line feed. -/
theorem Rejection.newline_not_mem_phrase (l : Locale) (reason : Rejection) :
    '\n' ∉ reason.phrase l := by
  cases reason <;> cases l <;> decide +kernel

/-- No failure of a stream has a line feed in its words. -/
theorem StreamFailure.newline_not_mem_message (failure : StreamFailure) :
    '\n' ∉ failure.message := by
  obtain ⟨activity, fault⟩ := failure
  have hfault : '\n' ∉ fault.message := by cases fault <;> decide +kernel
  cases activity with
  | none => exact hfault
  | some a =>
    have hactivity : '\n' ∉ a.message := by cases a <;> decide +kernel
    simp [message, hactivity, hfault]

/-- No field of a diagnostic has a line feed if it quotes none. -/
theorem Diagnostic.newline_not_mem_fields {d : Diagnostic} (h : d.Over (· ≠ '\n')) (l : Locale) :
    ∀ t ∈ d.fields l, '\n' ∉ t := by
  have hname : '\n' ∉ ownName := by decide +kernel
  simp only [Over, Text.over_ne_iff] at h
  cases d with
  | rejected reason =>
    simp [fields, hname, Locale.newline_not_mem_choose, Rejection.newline_not_mem_phrase]
  | _ =>
    simpa [fields, quoted, Locale.newline_not_mem_choose, StreamFailure.newline_not_mem_message]
      using h

/-- **A diagnostic that quotes no line feed is one line.** -/
theorem Diagnostic.count_line {d : Diagnostic} (h : d.Over (· ≠ '\n')) (l : Locale) :
    (d.line l).count lineFeed = 1 := by
  have hseparator : '\n' ∉ fieldSeparator := by decide +kernel
  have htext : '\n' ∉ d.text l := fun hmem => by
    rcases of_mem_intercalate hmem with hmem | ⟨t, ht, hmem⟩
    · exact hseparator hmem
    · exact d.newline_not_mem_fields h l t ht hmem
  rw [line, List.count_append, List.count_eq_zero.2 (lineFeed_not_mem_utf8 htext)]
  rfl

/-- **Diagnostics that quote no line feeds have a line each.** -/
theorem count_reportOf {ds : List Diagnostic} (h : ∀ d ∈ ds, d.Over (· ≠ '\n')) (l : Locale) :
    (reportOf l ds).count lineFeed = ds.length := by
  induction ds with
  | nil => rfl
  | cons d ds ih =>
    obtain ⟨hd, hds⟩ := List.forall_mem_cons.1 h
    rw [reportOf_cons, List.count_append, d.count_line hd, ih hds, List.length_cons, Nat.add_comm]

/-! ## The arguments of a search -/

/-- A count is rejected as such. -/
theorem SearchOptions.eq_badCount_of_withCount {o : SearchOptions} {count : Text} {e : SearchFault}
    (h : o.withCount count = .error e) : e = .badCount := by
  unfold withCount at h
  split at h
  · cases h
  · exact (Except.error.inj h).symm

/-- An option is rejected if it stands in the cluster. -/
theorem mem_of_readCluster {o : SearchOptions} {flags : Text} {c : Char}
    (h : readCluster o flags = .error (.unknownOption c)) : c ∈ flags := by
  fun_induction readCluster o flags with
  | case1 | case4 => cases h
  | case2 o flags ih | case3 o flags ih => exact List.mem_cons_of_mem _ (ih h)
  | case5 o count hne =>
    cases hcount : o.withCount count with
    | ok o => simp [hcount, Except.map] at h
    | error e => simp [hcount, Except.map, o.eq_badCount_of_withCount hcount] at h
  | case6 o d => simp_all

/-- The flags of a cluster are characters of the argument. -/
theorem subset_of_cluster? {arg flags : Text} (h : cluster? arg = some flags) : flags ⊆ arg := by
  unfold cluster? at h
  split at h
  · rw [← Option.some.inj h]
    exact List.subset_cons_self _ _
  · cases h

/-- The files of a search are among its arguments. -/
theorem files_subset_of_readSearch {o : SearchOptions} {args : List Text} {r : SearchRequest}
    (h : readSearch o args = .ok r) : r.files ⊆ args := by
  fun_induction readSearch o args with
  | case1 | case2 | case5 | case7 | case8 => cases h
  | case3 o pattern files =>
    rw [← Except.ok.inj h]
    exact List.subset_cons_of_subset _ (List.subset_cons_self pattern files)
  | case4 o arg rest =>
    rw [← Except.ok.inj h]
    exact List.subset_cons_self arg rest
  | case6 o arg rest hne flags hflags o' hcluster ih => exact List.subset_cons_of_subset _ (ih h)
  | case9 o arg hne flags hflags o' hcluster count rest o'' hcount ih =>
    exact List.subset_cons_of_subset _ (List.subset_cons_of_subset _ (ih h))

/-- An option is rejected if it stands in one of the arguments. -/
theorem exists_mem_of_readSearch {o : SearchOptions} {args : List Text} {c : Char}
    (h : readSearch o args = .error (.unknownOption c)) : ∃ arg ∈ args, c ∈ arg := by
  fun_induction readSearch o args with
  | case1 | case2 | case3 | case4 | case7 => cases h
  | case5 o arg rest hne flags hflags e he =>
    obtain rfl := Except.error.inj h
    exact ⟨arg, List.mem_cons_self, subset_of_cluster? hflags (mem_of_readCluster he)⟩
  | case6 o arg rest hne flags hflags o' hcluster ih =>
    obtain ⟨arg, harg, hc⟩ := ih h
    exact ⟨arg, List.mem_cons_of_mem _ harg, hc⟩
  | case8 o arg hne flags hflags o' hcluster count rest e he =>
    rw [Except.error.inj h] at he
    cases o'.eq_badCount_of_withCount he
  | case9 o arg hne flags hflags o' hcluster count rest o'' hcount ih =>
    obtain ⟨arg, harg, hc⟩ := ih h
    exact ⟨arg, List.mem_cons_of_mem _ (List.mem_cons_of_mem _ harg), hc⟩

/-! ## What a stage quotes -/

/-- The name of a command has no line feed. -/
theorem Command.over_name (c : Command) : Text.Over (· ≠ '\n') c.name :=
  Text.over_ne_iff.2 (by cases c <;> decide +kernel)

/-- The file arguments of a command are among its arguments. -/
theorem Command.fileArguments_subset (c : Command) (args : List Text) :
    c.fileArguments args ⊆ args := by
  cases c with
  | echo | pwd => exact List.nil_subset args
  | cat | wc => exact List.Subset.refl args
  | grep =>
    cases hread : parseSearch args with
    | error e => simp [fileArguments, hread]
    | ok r =>
      simp only [fileArguments, hread]
      exact files_subset_of_readSearch hread

/-- What a command says about its arguments quotes nothing else. -/
theorem SearchFault.over_diagnostic {args : List Text} (h : ∀ arg ∈ args, Text.Over (· ≠ '\n') arg)
    {e : SearchFault} (he : parseSearch args = .error e) (c : Command) :
    (e.diagnostic c.name).Over (· ≠ '\n') := by
  cases e with
  | noPattern | badCount => exact List.forall_mem_singleton.2 c.over_name
  | unknownOption flag =>
    obtain ⟨arg, harg, hflag⟩ := exists_mem_of_readSearch he
    have hquoted : Text.Over (· ≠ '\n') ['-', flag] :=
      Text.over_cons.2 ⟨by decide, Text.over_cons.2 ⟨h arg harg flag hflag, Text.over_nil⟩⟩
    exact List.forall_mem_cons.2 ⟨c.over_name, List.forall_mem_singleton.2 hquoted⟩

/-- **A command quotes its name and its arguments only.** -/
theorem Command.over_reports (c : Command) (s : Surroundings) {args : List Text}
    (h : ∀ arg ∈ args, Text.Over (· ≠ '\n') arg) : ∀ d ∈ c.reports s args, d.Over (· ≠ '\n') := by
  intro d hd
  unfold reports at hd
  cases hfault : c.fault? args with
  | some e =>
    rw [hfault] at hd
    rw [List.mem_singleton.1 hd]
    exact SearchFault.over_diagnostic h (fault?_eq_some_iff.1 hfault).2 c
  | none =>
    rw [hfault] at hd
    obtain ⟨name, hname, rfl⟩ := List.mem_map.1 hd
    have hmem := c.fileArguments_subset args (List.mem_filter.1 hname).1
    exact List.forall_mem_cons.2 ⟨c.over_name, List.forall_mem_singleton.2 (h name hmem)⟩

/-- A missing command is reported by characters of its name. -/
theorem reportedName_subset (name : Text) : reportedName name ⊆ name := by
  unfold reportedName
  split
  · exact List.dropLast_subset name
  · exact List.Subset.refl name

/-- **A stage quotes its name and its arguments only.** -/
theorem Session.over_stageReports (s : Session) (disk : Disk) {stage : Stage}
    (h : stage.Over (· ≠ '\n')) : ∀ d ∈ s.stageReports disk stage, d.Over (· ≠ '\n') := by
  obtain ⟨hname, hargs⟩ := List.forall_mem_cons.1 h
  unfold stageReports
  cases s.command? stage.name with
  | some c => exact c.over_reports _ hargs
  | none =>
    refine List.forall_mem_singleton.2 (List.forall_mem_singleton.2 ?_)
    exact hname.of_subset (reportedName_subset stage.name)

/-! ## How much there is to report -/

/-- How many of some files cannot be read, each counted as often as it is named. -/
def Surroundings.missing (s : Surroundings) (names : List Text) : Nat :=
  names.countP fun name => (s.read? name).isNone

/-- **What there is to report of a stage**: that no command has its name, or that it is a search whose
arguments are rejected, or else every file argument that cannot be read. -/
def Session.stageFaults (s : Session) (disk : Disk) (stage : Stage) : Nat :=
  match s.command? stage.name with
  | none => 1
  | some .echo | some .pwd => 0
  | some .cat | some .wc => (s.surroundings disk).missing stage.args
  | some .grep =>
    match parseSearch stage.args with
    | .error _ => 1
    | .ok r => (s.surroundings disk).missing r.files

/-- **What there is to report of a line**: that it is rejected, or else what there is to report of its
stages. -/
def Session.lineFaults (s : Session) (disk : Disk) (line : Text) : Nat :=
  match planLine s.store line with
  | .error _ => 1
  | .ok plan => (plan.stages.map (s.stageFaults disk)).sum

/-- **What there is to report of some lines**, each in the session that those before it leave. -/
def Session.faults (disk : Disk) : Session → List Text → Nat
  | _, [] => 0
  | s, line :: rest => s.lineFaults disk line + (s.afterLine line).faults disk rest

/-- A stage has a diagnostic for everything there is to report of it. -/
theorem Session.length_stageReports (s : Session) (disk : Disk) (stage : Stage) :
    (s.stageReports disk stage).length = s.stageFaults disk stage := by
  have hfiles (names : List Text) :
      ((s.surroundings disk).unreadable names).length = (s.surroundings disk).missing names :=
    List.countP_eq_length_filter.symm
  unfold stageReports stageFaults
  cases s.command? stage.name with
  | none => rfl
  | some c =>
    cases c with
    | echo | pwd => rfl
    | cat | wc => exact (List.length_map _).trans (hfiles stage.args)
    | grep =>
      cases hread : parseSearch stage.args with
      | error e => simp [Command.reports, Command.fault?, hread]
      | ok r => simp [Command.reports, Command.fault?, Command.fileArguments, hread, hfiles]

/-- **The diagnostics of a line**: as many as there is to report, and without line feeds if the line and
the bindings have none. -/
theorem Session.diagnostics_reply (s : Session) (disk : Disk) (line : Text) :
    (s.reply disk line).1.diagnostics.length = s.lineFaults disk line ∧
      (s.store.Over (· ≠ '\n') → Text.Over (· ≠ '\n') line →
        ∀ d ∈ (s.reply disk line).1.diagnostics, d.Over (· ≠ '\n')) := by
  unfold reply lineFaults
  cases hplan : planLine s.store line with
  | error reason => exact ⟨rfl, fun _ _ => by simp [Diagnostic.Over, Diagnostic.quoted]⟩
  | ok plan =>
    simp only [pipelineReply_eq]
    refine ⟨by simp [List.length_flatMap, length_stageReports], fun hs hline d hd => ?_⟩
    obtain ⟨stage, hstage, hd⟩ := List.mem_flatMap.1 hd
    exact s.over_stageReports disk ((over_planLine hs hline hplan).1 stage hstage) d hd

/-! ## Scripts -/

/-- **The diagnostics of some lines**, by induction on the lines: each of them is one line of what is
written. -/
theorem Session.exists_diagnostics (disk : Disk) {s : Session} (hs : s.store.Over (· ≠ '\n'))
    {lines : List Text} (hlines : ∀ line ∈ lines, Text.Over (· ≠ '\n') line) (o e : Bytes) :
    ∃ ds : List Diagnostic, ds.length = s.faults disk lines ∧ (∀ d ∈ ds, d.Over (· ≠ '\n')) ∧
      (s.submitAll disk (.holding o e) lines).sinks.err.written = e ++ reportOf s.locale ds := by
  induction lines generalizing s o e with
  | nil => exact ⟨[], rfl, by simp, by simp [Sinks.holding]⟩
  | cons line lines ih =>
    obtain ⟨hline, hlines⟩ := List.forall_mem_cons.1 hlines
    obtain ⟨hcount, hquoted⟩ := s.diagnostics_reply disk line
    rw [submitAll_holding_cons]
    generalize (s.reply disk line).1 = r at hcount hquoted
    obtain ⟨ds, hlength, hds, hwritten⟩ := ih (over_afterLine hs hline) hlines (o ++ r.output)
      (e ++ reportOf s.locale r.diagnostics)
    have hlocale : (s.afterLine line).locale = s.locale := by
      unfold afterLine
      split <;> rfl
    refine ⟨r.diagnostics ++ ds, ?_, List.forall_mem_append.2 ⟨hquoted hs hline, hds⟩, ?_⟩
    · rw [List.length_append, hcount, hlength, faults]
    · rw [hwritten, hlocale, reportOf_append, List.append_assoc]

/-- **One line for each diagnostic.** If no value is bound that holds a line feed, a script binds none
either, whatever its bytes are: there is none after any of its lines. The output for diagnostics then
has as many line feeds as there is to report: a line that is rejected, a stage whose name no command
has, a search whose arguments are rejected, and every file argument that cannot be read, as often as it
is named. It is empty or ends with a line feed. -/
theorem Session.run_one_line_per_diagnostic (disk : Disk) (s : Session)
    (hs : ∀ name, '\n' ∉ s.store.get name) (script : Bytes) :
    let lines := Source.commandLines { data := script }
    let ran := s.run disk {} { data := script }
    (∀ k name, '\n' ∉ (s.submitAll disk {} (lines.take k)).session.store.get name) ∧
      ran.result = .ok () ∧ ran.sinks.err.written.count lineFeed = s.faults disk lines ∧
      EndsLine ran.sinks.err.written := by
  intro lines ran
  have hstore : s.store.Over (· ≠ '\n') := fun name => Text.over_ne_iff.2 (hs name)
  have hlines : ∀ line ∈ lines, Text.Over (· ≠ '\n') line := fun line => over_of_mem_commandLines
  obtain ⟨ds, hlength, hds, hwritten⟩ := exists_diagnostics disk hstore hlines [] []
  obtain ⟨o, e, hrun⟩ := s.submitAll_holding disk lines
  have hran : ran = s.submitAll disk (.holding [] []) lines := s.run_data disk {} script
  rw [hran, hwritten]
  refine ⟨fun k name => ?_, by rw [hrun], ?_, endsLine_reportOf s.locale ds⟩
  · obtain ⟨o, e, hfirst⟩ := s.submitAll_holding disk (lines.take k)
    have hsession : (s.submitAll disk {} (lines.take k)).session = (lines.take k).foldl afterLine s :=
      congrArg Outcome.session (hfirst [] [])
    rw [hsession, ← Text.over_ne_iff]
    exact over_foldl_afterLine hstore (fun line hline => hlines line (List.mem_of_mem_take hline)) name
  · rw [List.nil_append, count_reportOf hds, hlength]

/-- Every way to fail, with a stray byte and a carriage return in the script: a command whose name comes
from a binding, a file that is named twice, a quotation mark that stays open, an option that is a stray
byte, and a pipe operator alone. -/
theorem Session.run_one_line_per_diagnostic_of_faults :
    let s : Session := { store := .ofList [(['x'], "no such".toList)], dir := ['/'], locale := .en }
    let disk : Disk := .ofList [("/f".toList, .ok [0x0A, 0x0A])]
    let script := Text.utf8 "z=\"$x\"'$x' $x= | cat a f a\r\n'\ngrep -".toList ++ [0xFF]
      ++ Text.utf8 "z p\r\ngrep p $z f $z | wc\n|".toList
    let ran := s.run disk {} { data := script }
    (∀ name, '\n' ∉ s.store.get name) ∧ s.store.isBound ['x'] = true ∧
      ran.sinks.err.written.count lineFeed = 8 ∧ EndsLine ran.sinks.err.written ∧
      ∀ k name, '\n' ∉ (s.submitAll disk {}
        ((Source.commandLines { data := script }).take k)).session.store.get name := by
  intro s disk script
  have hs : ∀ name, '\n' ∉ s.store.get name := by
    intro name
    by_cases hname : ['x'] = name
    · subst hname
      decide +kernel
    · have hempty : s.store.get name = [] := Store.get_bind_of_ne {} _ hname
      simp [hempty]
  obtain ⟨hstores, -, hcount, hends⟩ := run_one_line_per_diagnostic disk s hs script
  have hlines : Source.commandLines { data := script }
      = ["z=\"$x\"'$x' $x= | cat a f a", "'", "grep -\uFFFDz p", "grep p $z f $z | wc", "|"].map
          String.toList := by decide +kernel
  have hfaults : s.faults disk (Source.commandLines { data := script }) = 8 := by
    rw [hlines]
    decide +kernel
  exact ⟨hs, rfl, hcount.trans hfaults, hends, hstores⟩

end PipeShell
