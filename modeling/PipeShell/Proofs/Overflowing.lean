import PipeShell.Proofs.Filtering
import PipeShell.Proofs.Gathering

/-! # A stage whose output fills up

A stage that prints more than its output takes stops at the write that does not fit. By then it has
printed the first bytes of what it would have printed, and has reported the files that it could not read
before it came to the one that did not fit. The refused write is reported as well, and that is all.

* **`Write.CutsUp`** — the same bytes, written in more pieces; `Sinks.play_of_cutsUp` says that this
  makes no difference.
* **`Transcript.perform_capped`**, **`Transcript.StopsAfter.perform_eq`** — a command whose output fits,
  and one of which a write does not fit.
* **`Command.OverflowsAfter`** — which files a command is done with when its output overflows;
  `Command.exists_overflowsAfter` finds them for every command.
* **`Session.runStage_capped`** — a stage on a limited output and on an input that may fail. -/

namespace PipeShell

/-! ## Writing in pieces -/

/-- **Do some writes cut up others?** The diagnostics are the same and stand in the same places, and what
is handed to the output at once by the others is handed on in pieces. -/
inductive Write.CutsUp : List Write → List Write → Prop where
  | nil : CutsUp [] []
  | out (pieces : List Bytes) {ws us : List Write} (h : CutsUp ws us) :
      CutsUp (pieces.map .out ++ ws) (.out pieces.flatten :: us)
  | err (d : Diagnostic) {ws us : List Write} (h : CutsUp ws us) :
      CutsUp (.err d :: ws) (.err d :: us)

/-- Bytes go to the output. -/
theorem Sinks.play_out (l : Locale) (o e : Sink) (data : Bytes) (ws : List Write) :
    Sinks.play l ⟨o, e⟩ (.out data :: ws)
      = if o.accepts data then Sinks.play l ⟨o.push data, e⟩ ws
        else (⟨o.push data, e⟩, some .out) := rfl

/-- Pieces are written one by one as if they were written at once. -/
theorem Sinks.play_map_out (l : Locale) (o e : Sink) (pieces : List Bytes) (ws : List Write) :
    Sinks.play l ⟨o, e⟩ (pieces.map .out ++ ws) = Sinks.play l ⟨o, e⟩ (.out pieces.flatten :: ws) := by
  induction pieces generalizing o with
  | nil => simp [play_out]
  | cons piece pieces ih =>
    rw [List.map_cons, List.cons_append, play_out, ih, play_out, play_out, List.flatten_cons,
      Sink.accepts_append, Sink.push_append]
    cases hfits : o.accepts piece with
    | true => simp
    | false => simp [Sink.push_of_refused hfits]

/-- **It makes no difference in how many pieces a command writes.** -/
theorem Sinks.play_of_cutsUp {ws us : List Write} (h : Write.CutsUp ws us) (l : Locale) (s : Sinks) :
    s.play l ws = s.play l us := by
  induction h generalizing s with
  | nil => rfl
  | out pieces h ih =>
    obtain ⟨o, e⟩ := s
    rw [play_map_out, play_out, play_out, ih]
  | err d h ih => rw [play_cons, play_cons, ih]

/-- **Does a command do what another one does, in more pieces?** -/
structure Transcript.CutsUp (t u : Transcript) : Prop where
  writes : Write.CutsUp t.writes u.writes
  during : t.during = u.during
  ending : t.ending = u.ending

/-- Then they leave the same on any outputs. -/
theorem Transcript.CutsUp.perform_eq {t u : Transcript} (h : t.CutsUp u) (l : Locale) (cmd : Text)
    (s : Sinks) : t.perform l cmd s = u.perform l cmd s := by
  simp only [perform, Sinks.play_of_cutsUp h.writes, h.during, h.ending]

/-! ## Writes on an output that fills up -/

/-- Writes are made after those before them, if these have all been accepted. -/
theorem Sinks.play_append (l : Locale) (s : Sinks) (ws us : List Write) :
    s.play l (ws ++ us) = match s.play l ws with
      | (s', none) => s'.play l us
      | (s', some channel) => (s', some channel) := by
  induction ws generalizing s with
  | nil => rfl
  | cons w ws ih =>
    rw [List.cons_append, play_cons, play_cons]
    split
    · exact ih _
    · rfl

/-- **Writes that fit** are made as on outputs without limits. -/
theorem Sinks.play_capped (l : Locale) {n : Nat} {o e : Bytes} {ws : List Write}
    (h : (o ++ ws.flatMap Write.output).length ≤ n) :
    Sinks.play l ⟨.capped n o, { written := e }⟩ ws
      = (⟨.capped n (o ++ ws.flatMap Write.output),
          { written := e ++ reportOf l (ws.filterMap Write.diagnostic?) }⟩, none) := by
  induction ws generalizing o e with
  | nil => simp
  | cons w ws ih =>
    cases w with
    | out data =>
      have hall : (o ++ data ++ ws.flatMap Write.output).length ≤ n := by
        rw [List.append_assoc]
        exact h
      have hdata : (o ++ data).length ≤ n :=
        Nat.le_trans (List.sublist_append_left _ _).length_le hall
      have ho : o.length ≤ n := Nat.le_trans (List.sublist_append_left _ _).length_le hdata
      rw [play_out, Sink.accepts_capped ho, decide_eq_true hdata, if_pos rfl, Sink.push_capped,
        ih hall, List.append_assoc]
      rfl
    | err d =>
      have hstep : Sinks.play l ⟨.capped n o, { written := e }⟩ (.err d :: ws)
          = Sinks.play l ⟨.capped n o, { written := e ++ d.line l }⟩ ws := rfl
      rw [hstep, ih h, List.append_assoc]
      rfl

/-- The same on outputs that hold nothing yet. -/
theorem Sinks.play_fresh (l : Locale) {n : Nat} {ws : List Write}
    (h : (ws.flatMap Write.output).length ≤ n) :
    Sinks.play l ⟨{ limit := some n }, {}⟩ ws
      = (⟨.capped n (ws.flatMap Write.output),
          { written := reportOf l (ws.filterMap Write.diagnostic?) }⟩, none) := by
  have hempty : Sink.capped n [] = { limit := some n } := by simp [Sink.capped]
  rw [← hempty]
  exact play_capped l h

/-- **Does the output overflow** when just these diagnostics have been made? There is a write that does
not fit, and all of it fits that is printed before it. -/
def Transcript.StopsAfter (t : Transcript) (n : Nat) (ds : List Diagnostic) : Prop :=
  ∃ before data after, t.writes = before ++ .out data :: after ∧
    (before.flatMap Write.output).length ≤ n ∧
    n < (before.flatMap Write.output ++ data).length ∧
    before.filterMap Write.diagnostic? = ds

/-- **A command whose output fits** does what it does on outputs without limits. -/
theorem Transcript.perform_capped {t : Transcript} {n : Nat} {cmd : Text}
    (h : (t.reply cmd).output.length ≤ n) (l : Locale) :
    t.perform l cmd ⟨{ limit := some n }, {}⟩
      = (⟨.capped n (t.reply cmd).output, { written := reportOf l (t.reply cmd).diagnostics }⟩,
          .ok (t.reply cmd).code) := by
  have hplay := Sinks.play_fresh l h
  rw [perform, hplay]
  cases hending : t.ending with
  | ok code => simp [reply, hending]
  | error f => simp [reply, hending, Sinks.report_eq, reportOf_append]

/-- **A command whose output overflows** prints what fits, and reports the refused write. -/
theorem Transcript.StopsAfter.perform_eq {t : Transcript} {n : Nat} {ds : List Diagnostic}
    (h : t.StopsAfter n ds) (l : Locale) (cmd : Text) :
    t.perform l cmd ⟨{ limit := some n }, {}⟩
      = (⟨.capped n (t.reply cmd).output,
          { written := reportOf l ds ++ Diagnostic.line l (.streamFailed cmd ⟨t.during, .sinkFull⟩) }⟩,
          .ok .failure) := by
  obtain ⟨before, data, after, hwrites, hfits, hover, rfl⟩ := h
  have hplay := Sinks.play_fresh l hfits
  -- what follows the refused write would only add to what does not fit already
  have hcut : Sink.capped n (t.reply cmd).output
      = .capped n (before.flatMap Write.output ++ data) := by
    have houtput : (t.reply cmd).output
        = (before.flatMap Write.output ++ data) ++ after.flatMap Write.output := by
      rw [reply, hwrites, List.flatMap_append, List.append_assoc]
      rfl
    rw [houtput, Sink.capped, Sink.capped, List.take_append_of_le_length (Nat.le_of_lt hover)]
  rw [perform, hwrites, Sinks.play_append, hplay]
  simp only [Sinks.play_out]
  rw [Sink.accepts_capped hfits, decide_eq_false (Nat.not_le.2 hover), Sink.push_capped, hcut]
  exact Sinks.report_eq ..

/-- A command that only prints overflows without having reported anything. -/
theorem Transcript.stopsAfter_of_single {t : Transcript} {data : Bytes} (h : t.writes = [.out data])
    {n : Nat} (hover : n < (t.writes.flatMap Write.output).length) : t.StopsAfter n [] := by
  refine ⟨[], data, [], h, Nat.zero_le n, ?_, rfl⟩
  rw [h] at hover
  simpa [Write.output] using hover

/-- **A command that copies an input which fails** reports the failure, unless a write has been refused
before that. -/
theorem Transcript.perform_of_single {t : Transcript} {data : Bytes} {f : StreamFailure}
    (hwrites : t.writes = [.out data]) (hending : t.ending = .error f) (l : Locale) (cmd : Text)
    (n : Nat) :
    t.perform l cmd ⟨{ limit := some n }, {}⟩
      = (⟨.capped n data, { written := Diagnostic.line l (.streamFailed cmd
          (if data.length ≤ n then f else ⟨t.during, .sinkFull⟩)) }⟩, .ok .failure) := by
  have hreply : t.reply cmd = ⟨[.streamFailed cmd f], data, .failure⟩ := by
    simp [reply, hwrites, hending, Write.output, List.filterMap_cons, Write.diagnostic?]
  have houtput : t.writes.flatMap Write.output = data := congrArg Reply.output hreply
  by_cases h : data.length ≤ n
  · have hfits : (t.reply cmd).output.length ≤ n := by rwa [hreply]
    rw [perform_capped hfits, hreply, if_pos h, reportOf_cons, reportOf_nil, List.append_nil]
  · have hover : n < (t.writes.flatMap Write.output).length := by
      rw [houtput]
      exact Nat.lt_of_not_le h
    rw [(stopsAfter_of_single hwrites hover).perform_eq, hreply, if_neg h]
    rfl

/-! ## Where the output of a command overflows -/

/-- **Some first lists fit together, and the next one no longer does**, if all of them do not. -/
theorem exists_overflow {α : Type} {f : α → Bytes} {n : Nat} {xs : List α}
    (h : n < (xs.flatMap f).length) :
    ∃ before x after, xs = before ++ x :: after ∧ (before.flatMap f).length ≤ n ∧
      n < ((before ++ [x]).flatMap f).length := by
  induction xs generalizing n with
  | nil => cases h
  | cons x xs ih =>
    by_cases hx : n < (f x).length
    · exact ⟨[], x, xs, rfl, Nat.zero_le n, by simpa using hx⟩
    · rw [List.flatMap_cons, List.length_append] at h
      obtain ⟨before, y, after, rfl, hfits, hover⟩ := ih (n := n - (f x).length) (by omega)
      refine ⟨x :: before, y, after, rfl, ?_, ?_⟩
      · rw [List.flatMap_cons, List.length_append]
        omega
      · rw [List.cons_append, List.flatMap_cons, List.length_append]
        omega

/-- **What a command shows of one of its files.** -/
def Command.shown (c : Command) (args : List Text) (name : Text) (data : Bytes) : Bytes :=
  match c, parseSearch args with
  | .cat, _ => data
  | .wc, _ => data.counts.row (some name)
  | .grep, .ok r => r.printed (if 1 < r.files.length then some name else none) data
  | _, _ => []

/-- What a command shows of some of its files. -/
def Command.shownOf (c : Command) (s : Surroundings) (args names : List Text) : Bytes :=
  (s.readable names).flatMap fun f => c.shown args f.1 f.2

/-- **Does the output of a command overflow when it is done with just these files?** What it shows of
them fits, and with the next file it does not. If there is no next file, it overflows behind them all: at
the totals, or in a command without files. -/
structure Command.OverflowsAfter (c : Command) (s : Surroundings) (args : List Text) (n : Nat)
    (done rest : List Text) : Prop where
  files : c.fileArguments args = done ++ rest
  fits : (c.shownOf s args done).length ≤ n
  overflows : ∀ name ∈ rest.head?, n < (c.shownOf s args (done ++ [name])).length

/-- **A command that goes through its files** overflows at one of them, or at its summary if it has
one. -/
theorem Surroundings.exists_stopsAfter (s : Surroundings) (cmd : Text)
    (shown : Text → Bytes → Bytes) (names : List Text) {summary : List Write}
    (hsummary : summary = [] ∨ ∃ row, summary = [.out row]) {n : Nat}
    (hover : n < ((s.overFiles cmd shown names summary).writes.flatMap Write.output).length) :
    let shownOf (names : List Text) := (s.readable names).flatMap fun f => shown f.1 f.2
    ∃ done rest, names = done ++ rest ∧ (shownOf done).length ≤ n ∧
      (∀ name ∈ rest.head?, n < (shownOf (done ++ [name])).length) ∧
      (s.overFiles cmd shown names summary).StopsAfter n
        ((s.unreadable done).map (.unreadable cmd)) := by
  intro shownOf
  have hshown (names : List Text) :
      (names.map (s.showFile cmd shown)).flatMap Write.output = shownOf names :=
    s.flatMap_showFile cmd shown names
  by_cases hfiles : n < (shownOf names).length
  · rw [← hshown, List.flatMap_map] at hfiles
    obtain ⟨done, name, rest, rfl, hfits, hnext⟩ := exists_overflow hfiles
    rw [← List.flatMap_map, hshown] at hfits hnext
    cases hread : s.read? name with
    | none =>
      -- nothing is printed of a file that cannot be read
      have hnothing : shownOf (done ++ [name]) = shownOf done := by
        simp [shownOf, readable, List.filterMap_append, hread]
      rw [hnothing] at hnext
      exact absurd hnext (Nat.not_lt.2 hfits)
    | some content =>
      have hwrite : s.showFile cmd shown name = .out (shown name content) := by
        rw [showFile, hread]
      refine ⟨done, name :: rest, rfl, hfits, by simpa using hnext, done.map (s.showFile cmd shown),
        shown name content, rest.map (s.showFile cmd shown) ++ summary, ?_, ?_, ?_,
        s.filterMap_showFile cmd shown done⟩
      · simp [overFiles, Transcript.finish, hwrite]
      · rwa [hshown]
      · have hlast : shownOf (done ++ [name]) = shownOf done ++ shown name content := by
          simp [shownOf, readable, List.filterMap_append, hread]
        rwa [hshown, ← hlast]
  · have hwrites : (s.overFiles cmd shown names summary).writes
        = names.map (s.showFile cmd shown) ++ summary := rfl
    have hfits : (shownOf names).length ≤ n := Nat.not_lt.1 hfiles
    rcases hsummary with rfl | ⟨row, rfl⟩
    · rw [hwrites, List.append_nil, hshown] at hover
      exact absurd hover hfiles
    · rw [hwrites, List.flatMap_append, hshown] at hover
      refine ⟨names, [], (List.append_nil names).symm, hfits, by simp,
        names.map (s.showFile cmd shown), row, [], hwrites, by rwa [hshown], ?_,
        s.filterMap_showFile cmd shown names⟩
      rw [hshown]
      simpa [Write.output] using hover

/-- The row of totals is one write, if it is made. -/
theorem totalRow_eq_nil_or (s : Surroundings) (names : List Text) :
    totalRow s names = [] ∨ ∃ row, totalRow s names = [.out row] := by
  unfold totalRow
  split
  · exact .inr ⟨_, rfl⟩
  · exact .inl rfl

section Commands

variable {c : Command} {s : Surroundings} {args : List Text} {input : Source} {n : Nat}
  (hover : n < ((c.transcript s args input).writes.flatMap Write.output).length)

include hover

/-- A command that names no files overflows at its only write. -/
theorem Command.exists_overflowsAfter_of_single (hfiles : c.fileArguments args = []) {data : Bytes}
    (hwrites : (c.transcript s args input).writes = [.out data]) :
    ∃ done rest, c.OverflowsAfter s args n done rest ∧
      (c.transcript s args input).StopsAfter n ((s.unreadable done).map (.unreadable c.name)) :=
  ⟨[], [], ⟨hfiles, Nat.zero_le n, by simp⟩, Transcript.stopsAfter_of_single hwrites hover⟩

/-- So does one that shows its input, which it has then read to the end. -/
theorem Command.exists_overflowsAfter_of_filter (hfiles : c.fileArguments args = [])
    {shown : Bytes → Bytes} (ht : c.transcript s args input = input.filter shown) :
    ∃ done rest, c.OverflowsAfter s args n done rest ∧
      (c.transcript s args input).StopsAfter n ((s.unreadable done).map (.unreadable c.name)) := by
  cases hfails : input.fails with
  | true =>
    rw [ht, Source.filter, hfails] at hover
    exact absurd hover (Nat.not_lt_zero n)
  | false =>
    have hwrites : (c.transcript s args input).writes = [.out (shown input.data)] := by
      rw [ht, Source.filter, hfails]
      rfl
    exact exists_overflowsAfter_of_single hover hfiles hwrites

/-- One that goes through its files overflows at one of them, or at its summary. -/
theorem Command.exists_overflowsAfter_of_overFiles {summary : List Write}
    (ht : c.transcript s args input
      = s.overFiles c.name (c.shown args) (c.fileArguments args) summary)
    (hsummary : summary = [] ∨ ∃ row, summary = [.out row]) :
    ∃ done rest, c.OverflowsAfter s args n done rest ∧
      (c.transcript s args input).StopsAfter n ((s.unreadable done).map (.unreadable c.name)) := by
  rw [ht] at hover ⊢
  obtain ⟨done, rest, hnames, hfits, hnext, hstops⟩ :=
    s.exists_stopsAfter c.name (c.shown args) (c.fileArguments args) hsummary hover
  exact ⟨done, rest, ⟨hnames, hfits, hnext⟩, hstops⟩

/-- **Where the output of a command overflows**: it is done with some of its files, and has reported
those of them that it could not read. -/
theorem Command.exists_overflowsAfter :
    ∃ done rest, c.OverflowsAfter s args n done rest ∧
      (c.transcript s args input).StopsAfter n ((s.unreadable done).map (.unreadable c.name)) := by
  cases c with
  | echo | pwd => exact exists_overflowsAfter_of_single hover rfl rfl
  | cat =>
    cases args with
    | nil => exact exists_overflowsAfter_of_single hover rfl rfl
    | cons name names =>
      exact exists_overflowsAfter_of_overFiles hover
        (transcript_cat (List.cons_ne_nil name names) s input) (.inl rfl)
  | wc =>
    cases args with
    | nil =>
      have htranscript : Command.wc.transcript s [] input
          = input.filter fun data => data.counts.row none := rfl
      exact exists_overflowsAfter_of_filter hover rfl htranscript
    | cons name names =>
      exact exists_overflowsAfter_of_overFiles hover
        (transcript_wc (List.cons_ne_nil name names) s input) (totalRow_eq_nil_or s _)
  | grep =>
    cases hread : parseSearch args with
    | error e =>
      simp only [transcript, hread] at hover
      exact absurd hover (Nat.not_lt_zero n)
    | ok r =>
      have htranscript : Command.grep.transcript s args input
          = r.transcript Command.grep.name s input := by simp only [transcript, hread]
      have hnames : Command.grep.fileArguments args = r.files := by
        simp only [fileArguments, hread]
      by_cases hfiles : r.files = []
      · have hfilter : Command.grep.transcript s args input = input.filter (r.printed none) := by
          rw [htranscript, SearchRequest.transcript, hfiles]
        exact exists_overflowsAfter_of_filter hover (hnames.trans hfiles) hfilter
      · have hshown : Command.grep.shown args
            = fun name => r.printed (if 1 < r.files.length then some name else none) := by
          funext name data
          simp only [shown, hread]
        refine exists_overflowsAfter_of_overFiles hover ?_ (.inl rfl)
        rw [htranscript, r.transcript_of_files hfiles, hnames, hshown]

end Commands

/-! ## Stages -/

/-- The report of a stream that has failed, in every language. -/
theorem Diagnostic.line_streamFailed (l : Locale) (cmd : Text) (f : StreamFailure) :
    line l (.streamFailed cmd f) = Text.utf8 (cmd ++ ": ".toList ++ f.message ++ ['\n']) := by
  have hfeed : [lineFeed] = Text.utf8 ['\n'] := rfl
  rw [line, hfeed, ← Text.utf8_append]
  simp [text, fields, fieldSeparator, List.intercalate]

/-- A command that shows its input does nothing that a refused write would name. -/
theorem Source.during_filter (src : Source) (shown : Bytes → Bytes) :
    (src.filter shown).during = none := by
  unfold filter
  split <;> rfl

/-- **Only a command that copies its input** says so when a write is refused. -/
theorem Command.during_transcript (c : Command) (s : Surroundings) (args : List Text)
    (input : Source) :
    (c.transcript s args input).during
      = if c = .cat ∧ args = [] then some .copyingInput else none := by
  cases c with
  | echo | pwd => rfl
  | cat => cases args <;> rfl
  | wc =>
    cases args with
    | nil => exact input.during_filter _
    | cons name names => rfl
  | grep =>
    simp only [reduceCtorEq, false_and, if_false]
    cases hread : parseSearch args with
    | error e => simp only [transcript, hread]; rfl
    | ok r =>
      simp only [transcript, hread]
      by_cases hfiles : r.files = []
      · rw [SearchRequest.transcript, hfiles]
        exact input.during_filter _
      · rw [r.transcript_of_files hfiles]
        rfl

/-- What a stage does on outputs without limits. -/
theorem Session.runStage_unlimited (s : Session) (disk : Disk) (stage : Stage) (input : Source) :
    let reply := (s.transcript disk stage input).reply stage.name
    s.runStage disk stage input {}
      = (.holding reply.output (reportOf s.locale reply.diagnostics), .ok reply.code) :=
  (s.transcript disk stage input).perform_holding s.locale stage.name [] []

/-- What it prints. -/
theorem Session.runStage_printed (s : Session) (disk : Disk) (stage : Stage) (input : Source) :
    (s.runStage disk stage input {}).1.out.written
      = ((s.transcript disk stage input).reply stage.name).output :=
  congrArg (·.1.out.written) (s.runStage_unlimited disk stage input)

/-- **A stage whose output fits** does what it does without a limit. -/
theorem Session.runStage_of_fits (s : Session) (disk : Disk) (stage : Stage) (input : Source) {n : Nat}
    (h : (s.runStage disk stage input {}).1.out.written.length ≤ n) :
    let whole := s.runStage disk stage input {}
    s.runStage disk stage input ⟨{ limit := some n }, {}⟩
      = (⟨.capped n whole.1.out.written, { written := whole.1.err.written }⟩, whole.2) := by
  rw [runStage_printed] at h
  rw [runStage_unlimited]
  exact Transcript.perform_capped h s.locale

section Stages

variable {s : Session} (hs : s.commands = Command.all)

include hs

/-- So does only the stage for it. -/
theorem Session.during_transcript (disk : Disk) (stage : Stage) (input : Source) :
    (s.transcript disk stage input).during
      = if stage = .copy then some .copyingInput else none := by
  obtain ⟨name, args⟩ := stage
  simp only [transcript, Stage.copy, Stage.mk.injEq]
  cases hc : s.command? name with
  | none =>
    have hne : name ≠ Command.cat.name := (command?_eq_none_iff hs).1 hc .cat
    simp [hne, Transcript.finish]
  | some c =>
    obtain rfl := name_of_command? hc
    have hname : c.name = Command.cat.name ↔ c = .cat :=
      ⟨Command.name_injective, congrArg Command.name⟩
    simp only [hname, c.during_transcript]

/-- **A stage that reads its input when that fails**: what it has read is copied, or is lost. -/
theorem Session.transcript_of_fails {stage : Stage} (h : stage.ReadsInput) (disk : Disk)
    {input : Source} (hfails : input.fails = true) :
    s.transcript disk stage input
      = if stage = .copy then
          { writes := [.out input.data], during := some .copyingInput,
            ending := .error ⟨some .copyingInput, .sourceFailed⟩ }
        else { ending := .error ⟨some .readingInput, .sourceFailed⟩ } := by
  have hfilter (shown : Bytes → Bytes) :
      input.filter shown = { ending := .error ⟨some .readingInput, .sourceFailed⟩ } := by
    rw [Source.filter, hfails, if_pos rfl]
  obtain ⟨name, args⟩ := stage
  rcases h with ⟨rfl | rfl, rfl⟩ | ⟨rfl, r, hread, hfiles⟩
  · have hcopy := transcript_copy hs disk input
    rw [concatenate, hfails, if_pos rfl] at hcopy
    have hstage : (⟨Command.cat.name, []⟩ : Stage) = .copy := rfl
    rw [if_pos hstage]
    exact hcopy
  · have hne : (⟨Command.wc.name, []⟩ : Stage) ≠ .copy := by decide
    rw [if_neg hne, transcript, command?_name hs .wc]
    exact hfilter fun data => data.counts.row none
  · have hname : Command.grep.name ≠ Command.cat.name := by decide
    have hne : (⟨Command.grep.name, args⟩ : Stage) ≠ .copy := mt (congrArg Stage.name) hname
    rw [if_neg hne, transcript_of_searches hs ⟨rfl, hread, hfiles⟩, hfilter]

/-- What such a stage prints on an output without a limit. -/
theorem Session.printed_of_fails {stage : Stage} (h : stage.ReadsInput) (disk : Disk)
    {input : Source} (hfails : input.fails = true) :
    (s.runStage disk stage input {}).1.out.written = if stage = .copy then input.data else [] := by
  rw [runStage_printed, transcript_of_fails hs h disk hfails]
  split
  · exact List.append_nil _
  · rfl

/-- What it does on one with a limit. A copy meets the limit or the failure, whichever is first. -/
theorem Session.runStage_of_fails {stage : Stage} (h : stage.ReadsInput) (disk : Disk)
    {input : Source} (hfails : input.fails = true) (n : Nat) :
    s.runStage disk stage input ⟨{ limit := some n }, {}⟩
      = (⟨.capped n (if stage = .copy then input.data else []),
          { written := Diagnostic.line s.locale (.streamFailed stage.name
            (if stage = .copy then
              ⟨some .copyingInput, if input.data.length ≤ n then .sourceFailed else .sinkFull⟩
            else ⟨some .readingInput, .sourceFailed⟩)) }⟩, .ok .failure) := by
  rw [runStage, transcript_of_fails hs h disk hfails]
  by_cases hcopy : stage = .copy
  · rw [if_pos hcopy, if_pos hcopy, if_pos hcopy, Transcript.perform_of_single rfl rfl]
    split <;> rfl
  · have hreply (f : StreamFailure) :
        Transcript.reply stage.name { ending := .error f }
          = ⟨[.streamFailed stage.name f], [], .failure⟩ := rfl
    rw [if_neg hcopy, if_neg hcopy, if_neg hcopy, Transcript.perform_capped (Nat.zero_le n), hreply,
      reportOf_cons, reportOf_nil, List.append_nil]

/-- **A stage whose output overflows** has gone through some of its files, and reports those of them
that it could not read, and then the refused write. -/
theorem Session.runStage_of_overflow (disk : Disk) (stage : Stage) (input : Source) {n : Nat}
    (hover : n < (s.runStage disk stage input {}).1.out.written.length) :
    ∃ c done rest, s.command? stage.name = some c ∧
      c.OverflowsAfter (s.surroundings disk) stage.args n done rest ∧
      s.runStage disk stage input ⟨{ limit := some n }, {}⟩
        = (⟨.capped n (s.runStage disk stage input {}).1.out.written,
            { written := (((s.surroundings disk).unreadable done).flatMap fun name =>
                (Diagnostic.unreadable stage.name name).line s.locale) ++
                  Diagnostic.line s.locale (.streamFailed stage.name
                    ⟨if stage = .copy then some .copyingInput else none, .sinkFull⟩) }⟩,
            .ok .failure) := by
  rw [runStage_printed] at hover ⊢
  cases hc : s.command? stage.name with
  | none =>
    -- the report of a missing command is no output
    rw [transcript, hc] at hover
    exact absurd hover (Nat.not_lt_zero n)
  | some c =>
    have ht : s.transcript disk stage input
        = c.transcript (s.surroundings disk) stage.args input := by
      rw [transcript, hc]
    rw [ht] at hover
    obtain ⟨done, rest, hfiles, hstops⟩ := Command.exists_overflowsAfter hover
    rw [← ht, ← name_of_command? hc] at hstops
    have hperform := hstops.perform_eq s.locale stage.name
    rw [during_transcript hs, reportOf, List.flatMap_map] at hperform
    exact ⟨c, done, rest, rfl, hfiles, hperform⟩

end Stages

/-- **A stage on an output that fills up.** For every stage, all files and every input, when the output
takes so many bytes and diagnostics do not fail: the call succeeds, and the output holds the first bytes
of what the stage prints without a limit. If that fits, the stage reports and ends as without a limit.
Otherwise it ends in failure, and what it reports are the files that it could not read before it came to
the write that did not fit, a line for each, and then in one line that the output is full. If the input
fails after its bytes, a stage that does not read it does the same as on any other input; a stage that
copies it prints what could be read, as far as it fits, and reports the first failure that it meets; and
any other prints nothing and reports the failure of the input. None of this depends on how the bytes are
cut up into writes. -/
theorem Session.runStage_capped {s : Session} (hs : s.commands = Command.all) (disk : Disk)
    (stage : Stage) (input : Source) (limit : Nat) :
    let here := s.surroundings disk
    let whole := s.runStage disk stage input {}
    let limits : Sinks := ⟨{ limit := some limit }, {}⟩
    let cut := s.runStage disk stage input limits
    let printed := whole.1.out.written
    let complaint (what : String) : Bytes :=
      Text.utf8 (stage.name ++ ": ".toList ++ what.toList ++ ['\n'])
    (∃ code, cut.2 = .ok code) ∧
    cut.1.out.written = printed.take limit ∧
    (printed.length ≤ limit → cut.2 = whole.2 ∧ cut.1.err.written = whole.1.err.written) ∧
    (limit < printed.length → cut.2 = .ok .failure ∧
      ∃ c done rest, s.command? stage.name = some c ∧
        c.OverflowsAfter here stage.args limit done rest ∧
        cut.1.err.written
          = ((here.unreadable done).flatMap fun name =>
              (Diagnostic.unreadable stage.name name).line s.locale) ++
            complaint (if stage = .copy then "copying standard input: sink full" else "sink full")) ∧
    (¬ stage.ReadsInput → ∀ other sinks,
      s.runStage disk stage input sinks = s.runStage disk stage other sinks) ∧
    (stage.ReadsInput → input.fails = true → cut.2 = .ok .failure ∧
      if stage = .copy then
        printed = input.data ∧ cut.1.err.written
          = complaint (if input.data.length ≤ limit then "copying standard input: source failed"
              else "copying standard input: sink full")
      else
        printed = [] ∧ cut.1.err.written = complaint "reading standard input: source failed") ∧
    ∀ t : Transcript, t.CutsUp (s.transcript disk stage input) →
      t.perform s.locale stage.name limits = cut := by
  intro here whole limits cut printed complaint
  have hcomplaint (f : StreamFailure) (what : String) (h : f.message = what.toList) :
      Diagnostic.line s.locale (.streamFailed stage.name f) = complaint what := by
    rw [Diagnostic.line_streamFailed, h]
  have hover (h : limit < printed.length) : ∃ c done rest, s.command? stage.name = some c ∧
      c.OverflowsAfter here stage.args limit done rest ∧ cut = _ :=
    runStage_of_overflow hs disk stage input h
  have hfit (h : printed.length ≤ limit) : cut = _ := s.runStage_of_fits disk stage input h
  refine ⟨?_, ?_, fun h => by rw [hfit h]; exact ⟨rfl, rfl⟩, fun h => ?_, fun h other sinks => ?_,
    fun hreads hfails => ?_, fun t ht => ht.perform_eq s.locale stage.name limits⟩
  · rcases Nat.lt_or_ge limit printed.length with h | h
    · obtain ⟨c, done, rest, -, -, hcut⟩ := hover h
      exact ⟨_, congrArg Prod.snd hcut⟩
    · rw [hfit h, runStage_unlimited]
      exact ⟨_, rfl⟩
  · rcases Nat.lt_or_ge limit printed.length with h | h
    · obtain ⟨c, done, rest, -, -, hcut⟩ := hover h
      exact congrArg (·.1.out.written) hcut
    · exact congrArg (·.1.out.written) (hfit h)
  · obtain ⟨c, done, rest, hc, hfiles, hcut⟩ := hover h
    rw [hcomplaint _ (if stage = .copy then "copying standard input: sink full" else "sink full")
      (by split <;> rfl)] at hcut
    exact ⟨congrArg Prod.snd hcut, c, done, rest, hc, hfiles, congrArg (·.1.err.written) hcut⟩
  · rw [runStage, runStage, s.transcript_of_not_readsInput h disk input other]
  · have hcut : cut = _ := runStage_of_fails hs hreads disk hfails limit
    have hprinted : printed = _ := printed_of_fails hs hreads disk hfails
    by_cases hcopy : stage = .copy
    · simp only [if_pos hcopy] at hcut hprinted ⊢
      rw [hcomplaint _ (if input.data.length ≤ limit then "copying standard input: source failed"
        else "copying standard input: sink full") (by split <;> rfl)] at hcut
      exact ⟨congrArg Prod.snd hcut, hprinted, congrArg (·.1.err.written) hcut⟩
    · simp only [if_neg hcopy] at hcut hprinted ⊢
      rw [hcomplaint _ "reading standard input: source failed" rfl] at hcut
      exact ⟨congrArg Prod.snd hcut, hprinted, congrArg (·.1.err.written) hcut⟩

/-- The output of a search is full in the middle of a label: of the files before that one, one could not
be read, and the one after it is not reached. An input that fails is copied in part, and is not
counted. -/
theorem Session.runStage_capped_of_missing_files :
    let s : Session := { dir := [], locale := .en }
    let disk : Disk := .ofList [("f".toList, .ok (Text.utf8 "x".toList)),
      ("g".toList, .ok (Text.utf8 "y\nx\n".toList))]
    let search : Stage := ⟨"grep".toList, ["x", "f", "-", "g", "h"].map String.toList⟩
    let limits (n : Nat) : Sinks := ⟨{ limit := some n }, {}⟩
    let cut := s.runStage disk search {} (limits 5)
    let failing : Source := { data := Text.utf8 "ab".toList, fails := true }
    s.commands = Command.all ∧
      5 < (s.runStage disk search {} {}).1.out.written.length ∧
      cut.2 = .ok .failure ∧
      cut.1.out.written = Text.utf8 "f:x\ng".toList ∧
      cut.1.err.written
        = Text.utf8 "grep: -: No such file or directory\ngrep: sink full\n".toList ∧
      Command.grep.OverflowsAfter (s.surroundings disk) search.args 5 ["f".toList, "-".toList]
        ["g".toList, "h".toList] ∧
      (s.runStage disk .copy failing (limits 1)).1.err.written
        = Text.utf8 "cat: copying standard input: sink full\n".toList ∧
      (s.runStage disk ⟨"wc".toList, []⟩ failing (limits 1)).1.err.written
        = Text.utf8 "wc: reading standard input: source failed\n".toList := by
  intro s disk search limits cut failing
  have hs : s.commands = Command.all := rfl
  have hover : 5 < (s.runStage disk search {} {}).1.out.written.length := by decide +kernel
  obtain ⟨-, hout, -, hfull, -⟩ := runStage_capped hs disk search {} 5
  have hcopy := (runStage_capped hs disk .copy failing 1).2.2.2.2.2.1 (.inl ⟨.inl rfl, rfl⟩) rfl
  have hcount := (runStage_capped hs disk ⟨"wc".toList, []⟩ failing 1).2.2.2.2.2.1
    (.inl ⟨.inr rfl, rfl⟩) rfl
  have hne : (⟨"wc".toList, []⟩ : Stage) ≠ .copy := by decide
  rw [if_pos rfl] at hcopy
  rw [if_neg hne] at hcount
  refine ⟨hs, hover, (hfull hover).1, hout.trans (by decide +kernel), by decide +kernel,
    ⟨rfl, by decide +kernel, by decide +kernel⟩, hcopy.2.2.trans (by decide +kernel),
    hcount.2.2.trans (by decide +kernel)⟩

end PipeShell
