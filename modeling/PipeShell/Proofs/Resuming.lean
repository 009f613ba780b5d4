import PipeShell.Proofs.Truncation

/-! # Runs line by line

A run on outputs that do not fail submits the lines of its script one after the other, whatever they
do. So a script can be cut after any line feed and its second part be run later, in the session that
the first has left, and a source that fails ends the run where its last complete line ends.

* **`Bytes.lines_eq_splitOn`** — the lines of an input are the pieces between its line feeds.
* **`Session.submitEach`** — submit lines one after the other, taking no notice of the results.
* **`Session.run_line_by_line`** — scripts, their continuations, and sources that fail. -/

namespace PipeShell

/-! ## Pieces between line feeds -/

/-- Terminated lines and a rest are split at the line feeds into just these. -/
theorem splitOn_terminated {ls : List Bytes} {rest : Bytes} (hls : ∀ l ∈ ls, lineFeed ∉ l)
    (hrest : lineFeed ∉ rest) : (terminated ls ++ rest).splitOn lineFeed = ls ++ [rest] := by
  induction ls with
  | nil => exact List.splitOn_eq_singleton hrest
  | cons l ls ih =>
    obtain ⟨hl, hls⟩ := List.forall_mem_cons.1 hls
    rw [terminated_cons, List.append_assoc, List.cons_append,
      List.splitOn_append_cons_self_of_not_mem hl, ih hls, List.cons_append]

/-- **The lines of an input are the pieces between its line feeds**; after a final line feed there is
no further line. -/
theorem Bytes.lines_eq_splitOn (bs : Bytes) :
    bs.lines = if EndsLine bs then (bs.splitOn lineFeed).dropLast else bs.splitOn lineFeed := by
  obtain ⟨ls, rest, rfl, hls, hrest⟩ := exists_terminated bs
  rw [lines_terminated hls hrest, splitOn_terminated hls hrest]
  simp only [endsLine_terminated_append_iff hrest]
  split
  next => rw [List.append_nil, List.dropLast_concat]
  next => rfl

/-- The terminated lines of an input are its longest beginning at whose end no line goes on. -/
theorem prefix_terminated_of_endsLine {ls : List Bytes} {rest p : Bytes} (hrest : lineFeed ∉ rest)
    (hp : p <+: terminated ls ++ rest) (hends : EndsLine p) : p <+: terminated ls := by
  rcases List.prefix_or_prefix_of_prefix hp (List.prefix_append (terminated ls) rest) with h | ⟨q, rfl⟩
  · exact h
  · -- what goes beyond the terminated lines is a part of the rest
    have hq : lineFeed ∉ q := fun hmem =>
      hrest (((List.prefix_append_right_inj _).1 hp).subset hmem)
    have hnil : q = [] := (endsLine_terminated_append_iff hq ls).1 hends
    simp [hnil]

/-! ## Lines one after the other -/

/-- **Submit lines one after the other**, each to the session and the outputs that the one before it
has left, with no notice taken of the results. -/
def Session.submitEach (disk : Disk) (s : Session) (sinks : Sinks) (lines : List Text) :
    Session × Sinks :=
  lines.foldl (fun state line =>
    let o := state.1.submit disk state.2 line
    (o.session, o.sinks)) (s, sinks)

/-- **On outputs without limits, no line ends a run.** -/
theorem Session.submitAll_eq_submitEach (disk : Disk) (s : Session) (o e : Bytes)
    (lines : List Text) :
    s.submitAll disk (.holding o e) lines
      = ⟨(s.submitEach disk (.holding o e) lines).1, (s.submitEach disk (.holding o e) lines).2,
          .ok ()⟩ := by
  induction lines generalizing s o e with
  | nil => rfl
  | cons line lines ih =>
    rw [submitAll_holding_cons, ih]
    simp only [submitEach, List.foldl_cons, submit_holding]

/-! ## Scripts -/

/-- A script that continues one whose last line is complete. -/
theorem commandLines_append {script : Bytes} (h : EndsLine script) (more : Bytes) :
    Source.commandLines { data := script ++ more }
      = Source.commandLines { data := script } ++ Source.commandLines { data := more } := by
  simp [Source.commandLines, Bytes.lines_append h]

/-- **The continuation of a script is run where the script has ended.** -/
theorem Session.run_append {script : Bytes} (h : EndsLine script) (more : Bytes) (disk : Disk)
    (s : Session) :
    let first := s.run disk {} { data := script }
    let second := first.session.run disk {} { data := more }
    s.run disk {} { data := script ++ more }
      = ⟨second.session, .holding (first.sinks.out.written ++ second.sinks.out.written)
          (first.sinks.err.written ++ second.sinks.err.written), .ok ()⟩ := by
  intro first second
  obtain ⟨o, e, hscript⟩ := s.submitAll_holding disk (Source.commandLines { data := script })
  generalize (Source.commandLines { data := script }).foldl afterLine s = between at hscript
  obtain ⟨o', e', hmore⟩ := between.submitAll_holding disk (Source.commandLines { data := more })
  generalize (Source.commandLines { data := more }).foldl afterLine between = after at hmore
  have hfirst : first = ⟨between, .holding o e, .ok ()⟩ :=
    (s.run_data disk {} script).trans (hscript [] [])
  have hsecond : second = ⟨after, .holding o' e', .ok ()⟩ := by
    have hsession : first.session = between := congrArg Outcome.session hfirst
    change first.session.run disk {} { data := more } = _
    rw [hsession, run_data]
    exact hmore [] []
  have hboth : s.submitAll disk {} (Source.commandLines { data := script ++ more })
      = ⟨after, .holding (o ++ o') (e ++ e'), .ok ()⟩ := by
    have hbegin : s.submitAll disk {} (Source.commandLines { data := script })
        = ⟨between, .holding o e, .ok ()⟩ := hscript [] []
    rw [commandLines_append h, submitAll_append, hbegin]
    -- the second part writes the same after the output of the first as it does on its own
    exact hmore o e
  rw [run_data, hboth, hfirst, hsecond]
  rfl

/-- **A source that fails** is executed up to the end of its last complete line. -/
theorem Session.run_fails (disk : Disk) (s : Session) (o e : Bytes) {ls : List Bytes} {rest : Bytes}
    (hls : ∀ l ∈ ls, lineFeed ∉ l) (hrest : lineFeed ∉ rest) :
    s.run disk (.holding o e) { data := terminated ls ++ rest, fails := true }
      = { s.run disk (.holding o e) { data := terminated ls } with
          result := .error ⟨some .readingCommandLine, .sourceFailed⟩ } := by
  have hlines : Source.commandLines { data := terminated ls ++ rest, fails := true }
      = Source.commandLines { data := terminated ls } := by
    have hcomplete := Bytes.lines_terminated hls List.not_mem_nil
    rw [if_pos rfl, List.append_nil, List.append_nil] at hcomplete
    simp [Source.commandLines, cutLines_terminated hls hrest, hcomplete]
  rw [run_data, run, hlines, submitAll_eq_submitEach]
  rfl

/-- **A run is its lines, one after the other.** On outputs without limits, a script is executed to its
end, and it does what its lines do when each of them is submitted to the session that the one before it
has left, whatever comes of it: the lines are the pieces between the line feeds, each without a
carriage return at its end and with U+FFFD for whatever is no character. A script whose last line is
complete can be continued later in the session it has left. If the source fails, the longest beginning
of the script that ends in a line feed is executed, and then the failure is reported. -/
theorem Session.run_line_by_line (disk : Disk) (s : Session) (script o e : Bytes) :
    let pieces :=
      if EndsLine script then (script.splitOn lineFeed).dropLast else script.splitOn lineFeed
    let each := s.submitEach disk (.holding o e)
      (pieces.map fun piece => (dropCarriageReturn piece).lossyText)
    s.run disk (.holding o e) { data := script } = ⟨each.1, each.2, .ok ()⟩ ∧
    (∀ more, EndsLine script →
      let first := s.run disk {} { data := script }
      let second := first.session.run disk {} { data := more }
      s.run disk {} { data := script ++ more }
        = ⟨second.session, .holding (first.sinks.out.written ++ second.sinks.out.written)
            (first.sinks.err.written ++ second.sinks.err.written), .ok ()⟩) ∧
    ∃ complete rest, script = complete ++ rest ∧ EndsLine complete ∧
      (∀ p, p <+: script → EndsLine p → p <+: complete) ∧
      let failure : StreamFailure := ⟨some .readingCommandLine, .sourceFailed⟩
      s.run disk (.holding o e) { data := script, fails := true }
        = { s.run disk (.holding o e) { data := complete } with result := .error failure } ∧
      failure.message = "reading command line: source failed".toList := by
  refine ⟨?_, fun more hends => run_append hends more disk s, ?_⟩
  · have hlines : Source.commandLines { data := script } = script.lines.map commandLine := rfl
    rw [run_data, submitAll_eq_submitEach, hlines, Bytes.lines_eq_splitOn]
    rfl
  · obtain ⟨ls, rest, rfl, hls, hrest⟩ := exists_terminated script
    exact ⟨terminated ls, rest, rfl, endsLine_terminated ls,
      fun p hp hends => prefix_terminated_of_endsLine hrest hp hends,
      s.run_fails disk o e hls hrest, rfl⟩

/-- The first part of the script calls a command that does not exist, in a line that ends in a carriage
return, and leaves a quotation mark open; the second has no line feed and ends in a stray byte. -/
theorem Session.run_line_by_line_after_rejection :
    let s : Session := { dir := [], locale := .en }
    let disk : Disk := fun _ => .error .notFound
    let script := Text.utf8 "x=1 nope\r\n'\n".toList
    let more := Text.utf8 "echo $x".toList ++ [0xFF]
    EndsLine script ∧ ¬ EndsLine (script ++ more) ∧
      (s.run disk {} { data := script ++ more }).sinks.out.written
        = Text.utf8 "1\uFFFD\n".toList ∧
      (let first := s.run disk {} { data := script }
        let second := first.session.run disk {} { data := more }
        s.run disk {} { data := script ++ more }
          = ⟨second.session, .holding (first.sinks.out.written ++ second.sinks.out.written)
              (first.sinks.err.written ++ second.sinks.err.written), .ok ()⟩) ∧
      ∃ complete rest, script ++ more = complete ++ rest ∧ EndsLine complete ∧
        s.run disk (.holding [] []) { data := script ++ more, fails := true }
          = { s.run disk (.holding [] []) { data := complete } with
              result := .error ⟨some .readingCommandLine, .sourceFailed⟩ } := by
  intro s disk script more
  have hends : EndsLine script := by decide +kernel
  obtain ⟨-, hresume, -⟩ := s.run_line_by_line disk script [] []
  obtain ⟨-, -, complete, rest, hcut, hcomplete, -, hbroken, -⟩ :=
    s.run_line_by_line disk (script ++ more) [] []
  exact ⟨hends, by decide +kernel, by decide +kernel, hresume more hends, complete, rest, hcut,
    hcomplete, hbroken⟩

end PipeShell
