import PipeShell.Proofs.Reporting

/-! # Several files, one after the other

Three commands go through the files that they are given. What they print of a file does not depend on
the other files, and a file that cannot be read is reported and has no other part in what is done. Only
whether the lines of a search are labelled, and the row of totals, depend on the files together.

* **`Surroundings.readable`** — the files that can be read, with what they hold.
* **`Surroundings.reply_overFiles`** — what a command does that goes through its files.
* **`Progress`**, **`Surroundings.visit`** — the way through the files as a loop that keeps a total, a
  number and a code; `Surroundings.foldl_visit` says where it arrives.
* **`Session.runStage_overFiles`** — a stage that goes through its files; `Session.runStage_files` says what
  that makes of the three commands. -/

namespace PipeShell

/-! ## Files that can be read -/

/-- **The files that can be read**, each as often as it is named: the name as it is given, and the
content. -/
def Surroundings.readable (s : Surroundings) (names : List Text) : List (Text × Bytes) :=
  names.filterMap fun name => (s.read? name).map (Prod.mk name)

section Readable

variable {s : Surroundings} {name : Text} {content : Bytes}

/-- A file that can be read is among them. -/
theorem Surroundings.readable_cons_of_some (h : s.read? name = some content) (names : List Text) :
    s.readable (name :: names) = (name, content) :: s.readable names := by
  simp [readable, h]

/-- A file that cannot be read is not. -/
theorem Surroundings.readable_cons_of_none (h : s.read? name = none) (names : List Text) :
    s.readable (name :: names) = s.readable names := by
  simp [readable, h]

/-- A file that can be read is not among those that cannot. -/
theorem Surroundings.unreadable_cons_of_some (h : s.read? name = some content)
    (names : List Text) : s.unreadable (name :: names) = s.unreadable names := by
  simp [unreadable, h]

/-- A file that cannot be read is. -/
theorem Surroundings.unreadable_cons_of_none (h : s.read? name = none) (names : List Text) :
    s.unreadable (name :: names) = name :: s.unreadable names := by
  simp [unreadable, h]

end Readable

/-- Their contents are what can be read of all files. -/
theorem Surroundings.map_snd_readable (s : Surroundings) (names : List Text) :
    (s.readable names).map Prod.snd = names.filterMap s.read? := by
  rw [readable, List.map_filterMap]
  congr 1
  funext name
  cases s.read? name <;> rfl

/-- What is printed is what is shown of the files that can be read. -/
theorem Surroundings.flatMap_showFile (s : Surroundings) (cmd : Text)
    (shown : Text → Bytes → Bytes) (names : List Text) :
    (names.map (s.showFile cmd shown)).flatMap Write.output
      = (s.readable names).flatMap fun f => shown f.1 f.2 := by
  induction names with
  | nil => rfl
  | cons name names ih =>
    rw [List.map_cons, List.flatMap_cons, ih]
    cases hread : s.read? name with
    | none =>
      have hwrite : s.showFile cmd shown name = .err (.unreadable cmd name) := by
        rw [showFile, hread]
      rw [hwrite, readable_cons_of_none hread]
      rfl
    | some content =>
      have hwrite : s.showFile cmd shown name = .out (shown name content) := by
        rw [showFile, hread]
      rw [hwrite, readable_cons_of_some hread]
      rfl

/-- **What a command does that goes through its files**, if its summary reports nothing. -/
theorem Surroundings.reply_overFiles (s : Surroundings) (cmd : Text) (shown : Text → Bytes → Bytes)
    (names : List Text) {summary : List Write} (h : summary.filterMap Write.diagnostic? = []) :
    (s.overFiles cmd shown names summary).reply cmd
      = ⟨(s.unreadable names).map (.unreadable cmd),
          ((s.readable names).flatMap fun f => shown f.1 f.2) ++ summary.flatMap Write.output,
          if s.unreadable names = [] then .success else .failure⟩ := by
  rw [(s.reports_overFiles cmd shown names h).reply_eq, filesCode_eq, overFiles, Transcript.finish,
    List.flatMap_append, flatMap_showFile]

/-- The row of totals is printed if at least two files can be read. -/
theorem flatMap_output_totalRow (s : Surroundings) (names : List Text) :
    (totalRow s names).flatMap Write.output
      = if 2 ≤ (s.readable names).length then
          (Counts.sum ((s.readable names).map fun f => f.2.counts)).row (some s.locale.total)
        else [] := by
  have hcounts : (s.readable names).map (fun f => f.2.counts)
      = (names.filterMap s.read?).map Bytes.counts := by
    rw [← s.map_snd_readable, List.map_map]
    rfl
  have hlength : (s.readable names).length = (names.filterMap s.read?).length := by
    rw [← s.map_snd_readable, List.length_map]
  rw [hcounts, hlength, totalRow]
  cases names.filterMap s.read? with
  | nil => rfl
  | cons first rest =>
    cases rest with
    | nil => rfl
    | cons second rest => exact List.append_nil _

/-! ## The loop -/

/-- **How far a command has come** with its files: what has been printed and reported, the sum of the
counts and the number of the files that could be read, and the code so far. -/
structure Progress where
  printed : Bytes := []
  reported : List Diagnostic := []
  total : Counts := {}
  counted : Nat := 0
  code : ExitCode := .success
  deriving DecidableEq, Repr

/-- **One file more.** -/
def Surroundings.visit (s : Surroundings) (cmd : Text) (shown : Text → Bytes → Bytes)
    (p : Progress) (name : Text) : Progress :=
  match s.read? name with
  | some content =>
    { p with
      printed := p.printed ++ shown name content
      total := p.total.add content.counts
      counted := p.counted + 1 }
  | none =>
    { p with
      reported := p.reported ++ [.unreadable cmd name]
      code := .failure }

theorem Counts.add_assoc (a b c : Counts) : (a.add b).add c = a.add (b.add c) := by
  simp only [add, Nat.add_assoc]

/-- **Where the loop arrives**, by induction on the files: each of them adds to what there is, and only
to that part which it belongs to. -/
theorem Surroundings.foldl_visit (s : Surroundings) (cmd : Text) (shown : Text → Bytes → Bytes)
    (names : List Text) (p : Progress) :
    names.foldl (s.visit cmd shown) p =
      { printed := p.printed ++ (s.readable names).flatMap fun f => shown f.1 f.2
        reported := p.reported ++ (s.unreadable names).map (.unreadable cmd)
        total := p.total.add (Counts.sum ((s.readable names).map fun f => f.2.counts))
        counted := p.counted + (s.readable names).length
        code := if s.unreadable names = [] then p.code else .failure } := by
  induction names generalizing p with
  | nil => simp [readable, unreadable, Counts.add]
  | cons name names ih =>
    rw [List.foldl_cons, ih]
    cases hread : s.read? name with
    | none =>
      have hstep : s.visit cmd shown p name
          = { p with reported := p.reported ++ [.unreadable cmd name], code := .failure } := by
        rw [visit, hread]
      rw [hstep, readable_cons_of_none hread, unreadable_cons_of_none hread]
      simp
    | some content =>
      have hstep : s.visit cmd shown p name
          = { p with
              printed := p.printed ++ shown name content
              total := p.total.add content.counts
              counted := p.counted + 1 } := by
        rw [visit, hread]
      rw [hstep, readable_cons_of_some hread, unreadable_cons_of_some hread]
      simp [Counts.add_assoc, Nat.add_assoc, Nat.add_comm 1]

/-! ## The commands -/

/-- **A stage on outputs that do not fail** leaves what the reply of its command says. -/
theorem Session.runStage_of_command {s : Session} {stage : Stage} {c : Command}
    (h : s.command? stage.name = some c) (disk : Disk) (input : Source) (o e : Bytes) :
    s.runStage disk stage input (.holding o e) =
      let reply := (c.transcript (s.surroundings disk) stage.args input).reply c.name
      (.holding (o ++ reply.output) (e ++ reportOf s.locale reply.diagnostics), .ok reply.code) := by
  rw [runStage, transcript, h, name_of_command? h, Transcript.perform_holding]

/-- A search of files labels its lines if more than one is named. -/
theorem SearchRequest.transcript_of_files {r : SearchRequest} (h : r.files ≠ []) (cmd : Text)
    (s : Surroundings) (input : Source) :
    r.transcript cmd s input = s.overFiles cmd
      (fun name => r.printed (if 1 < r.files.length then some name else none)) r.files [] := by
  obtain ⟨options, pattern, files⟩ := r
  cases files with
  | nil => exact absurd rfl h
  | cons name names =>
    cases names with
    | nil => rfl
    | cons next names =>
      have hmany : 1 < (name :: next :: names).length := by simp
      simp only [transcript, hmany, if_true]

/-- `cat` with files goes through them. -/
theorem Command.transcript_cat {names : List Text} (h : names ≠ []) (s : Surroundings)
    (input : Source) :
    Command.cat.transcript s names input
      = s.overFiles Command.cat.name (fun _ data => data) names [] := by
  cases names with
  | nil => exact absurd rfl h
  | cons name names => rfl

/-- So does `wc`, which then adds the row of totals. -/
theorem Command.transcript_wc {names : List Text} (h : names ≠ []) (s : Surroundings)
    (input : Source) :
    Command.wc.transcript s names input = s.overFiles Command.wc.name
      (fun name data => data.counts.row (some name)) names (totalRow s names) := by
  cases names with
  | nil => exact absurd rfl h
  | cons name names => rfl

/-- What a stage prints is what its command writes to the output. -/
theorem Session.stageOutput_of_command {s : Session} {stage : Stage} {c : Command}
    (h : s.command? stage.name = some c) (disk : Disk) (data : Bytes) :
    s.stageOutput disk stage data = (c.transcript (s.surroundings disk) stage.args
      { data := data }).writes.flatMap Write.output := by
  rw [stageOutput, transcript, h]

/-- **At the head of a pipeline `cat` prints the files that can be read**, one after the other; without
files there is nothing that it could print. -/
theorem Session.stageOutput_cat {s : Session} (hs : s.commands = Command.all) (disk : Disk)
    (names : List Text) :
    s.stageOutput disk ⟨Command.cat.name, names⟩ []
      = (((s.surroundings disk).readable names).map Prod.snd).flatten := by
  rw [stageOutput_of_command (command?_name hs .cat)]
  cases names with
  | nil => rfl
  | cons name names =>
    rw [Command.transcript_cat (List.cons_ne_nil name names), Surroundings.overFiles,
      Transcript.finish, List.append_nil, Surroundings.flatMap_showFile]
    rfl

/-- It reports the others. -/
theorem Session.stageReports_cat {s : Session} (hs : s.commands = Command.all) (disk : Disk)
    (names : List Text) :
    s.stageReports disk ⟨Command.cat.name, names⟩
      = ((s.surroundings disk).unreadable names).map (.unreadable Command.cat.name) := by
  rw [stageReports, command?_name hs .cat]
  rfl

/-- **A stage that goes through its files**, on outputs that do not fail: what it leaves is put together
from the files that can be read and from the others. -/
theorem Session.runStage_overFiles {s : Session} (hs : s.commands = Command.all) {disk : Disk}
    {c : Command} {args names : List Text} {shown : Text → Bytes → Bytes} {summary : List Write}
    {input : Source} (hsummary : summary.filterMap Write.diagnostic? = [])
    (h : c.transcript (s.surroundings disk) args input
      = (s.surroundings disk).overFiles c.name shown names summary) (o e : Bytes) :
    s.runStage disk ⟨c.name, args⟩ input (.holding o e) =
      let here := s.surroundings disk
      (.holding (o ++ (((here.readable names).flatMap fun f => shown f.1 f.2)
          ++ summary.flatMap Write.output))
        (e ++ (here.unreadable names).flatMap fun name =>
          (Diagnostic.unreadable c.name name).line s.locale),
        .ok (if here.unreadable names = [] then .success else .failure)) := by
  have hreport (missing : List Text) :
      reportOf s.locale (missing.map (.unreadable c.name))
        = missing.flatMap fun name => (Diagnostic.unreadable c.name name).line s.locale :=
    List.flatMap_map ..
  rw [runStage_of_command (command?_name hs c), h, Surroundings.reply_overFiles _ _ _ _ hsummary]
  simp only [hreport]

/-- **A file that cannot be read makes no difference to the others.** Let `cat`, `wc` or a search be given
files, at least one, as often as one likes and in any order, on outputs that do not fail; whatever the
input is, it is not read. What is printed is put together from the files that can be read, in their
order: for `cat` their contents, for `wc` their rows of counts under the names that were given, and for
a search what it prints of each of them on its own, behind that name if more than one was given,
whether they can be read or not. `wc` adds a row of totals over the files that can be read if there are
at least two of these. What is reported are the other files, a line for each, and the code is a failure
exactly if there are any. A loop that goes from file to file with a total, a number of files and a code
comes to the same. -/
theorem Session.runStage_files {s : Session} (hs : s.commands = Command.all) (disk : Disk)
    {names : List Text} (hnames : names ≠ []) (input : Source) (o e : Bytes) :
    let here := s.surroundings disk
    let readable := here.readable names
    let missing := here.unreadable names
    let total := Counts.sum (readable.map fun f => f.2.counts)
    let code : ExitCode := if missing = [] then .success else .failure
    let run (c : Command) (args : List Text) := s.runStage disk ⟨c.name, args⟩ input (.holding o e)
    let leaves (c : Command) (printed : Bytes) : Sinks × Except StreamFailure ExitCode :=
      (.holding (o ++ printed)
        (e ++ missing.flatMap fun name => (Diagnostic.unreadable c.name name).line s.locale), .ok code)
    run .cat names = leaves .cat (readable.flatMap fun f => f.2) ∧
    run .wc names = leaves .wc ((readable.flatMap fun f => f.2.counts.row (some f.1)) ++
      if 2 ≤ readable.length then total.row (some s.locale.total) else []) ∧
    (∀ args r, parseSearch args = .ok r → r.files = names →
      run .grep args = leaves .grep (readable.flatMap fun f =>
        r.printed (if 1 < names.length then some f.1 else none) f.2)) ∧
    ∀ cmd shown, names.foldl (here.visit cmd shown) {} =
      { printed := readable.flatMap fun f => shown f.1 f.2
        reported := missing.map (.unreadable cmd)
        total := total
        counted := readable.length
        code := code } := by
  intro here readable missing total code run leaves
  refine ⟨?_, ?_, fun args r hread hfiles => ?_, fun cmd shown => ?_⟩
  · refine (runStage_overFiles hs rfl (Command.transcript_cat hnames here input) o e).trans ?_
    simp [leaves, readable, missing, code, here]
  · refine (runStage_overFiles hs (filterMap_diagnostic?_totalRow here names)
      (Command.transcript_wc hnames here input) o e).trans ?_
    rw [flatMap_output_totalRow]
    rfl
  · -- whether lines are labelled depends on the number of files that are named
    have htranscript : Command.grep.transcript here args input
        = here.overFiles Command.grep.name
            (fun name => r.printed (if 1 < names.length then some name else none)) names [] := by
      rw [← hfiles] at hnames ⊢
      simp only [Command.transcript, hread]
      exact r.transcript_of_files hnames _ _ input
    refine (runStage_overFiles hs rfl htranscript o e).trans ?_
    simp [leaves, readable, missing, code, here]
  · rw [here.foldl_visit]
    simp [Counts.add, readable, missing, total, code]

/-- Of five names three can be read, two of which are the same; to read the input would fail. -/
theorem Session.runStage_files_of_missing :
    let s : Session := { dir := "d".toList, locale := .en }
    let disk : Disk := .ofList [("d/a".toList, .ok (Text.utf8 "x y\nz".toList)),
      ("d/b".toList, .ok (Text.utf8 "x\n".toList))]
    let names := ["a", "-", "b", "d/b", "a"].map String.toList
    let input : Source := { data := Text.utf8 "x".toList, fails := true }
    let run (name : String) (args : List Text) :=
      s.runStage disk ⟨name.toList, args⟩ input (.holding [] [])
    let report (cmd : String) := Text.utf8 (cmd ++ ": -: No such file or directory\n" ++
      cmd ++ ": d/b: No such file or directory\n").toList
    s.commands = Command.all ∧ names ≠ [] ∧
      run "cat" names = (.holding (Text.utf8 "x y\nzx\nx y\nz".toList) (report "cat"), .ok .failure) ∧
      run "wc" names = (.holding (Text.utf8
        " 1\t3\t5 a\n 1\t1\t2 b\n 1\t3\t5 a\n 3\t7\t12 total\n".toList) (report "wc"), .ok .failure) ∧
      run "grep" ("-w".toList :: "x".toList :: names) = (.holding (Text.utf8
        "a:x y\nb:x\na:x y\n".toList) (report "grep"), .ok .failure) := by
  intro s disk names input run report
  have hs : s.commands = Command.all := rfl
  have hnames : names ≠ [] := by decide
  obtain ⟨hcat, hwc, hgrep, -⟩ := runStage_files hs disk hnames input [] []
  refine ⟨hs, hnames, hcat.trans ?_, hwc.trans ?_,
    (hgrep _ ⟨{ mode := { wholeWords := true } }, "x".toList, names⟩ rfl rfl).trans ?_⟩ <;>
    decide +kernel

end PipeShell
