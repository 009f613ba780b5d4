import PipeShell.CommandLine.Program
import PipeShell.Proofs.Encoding
import PipeShell.Proofs.Lexing
import PipeShell.Proofs.Truncation

/-! # Ways of feeding commands

Commands can be typed, read from the input as a batch, or read from a script file. Typed lines lose
their carriage return only together with a line feed and have to be valid UTF-8, while the lines of a
script lose it in any case and are read with replacements. Neither makes a difference for what is
valid UTF-8; what is not ends the typing where it stands.

* **`planLine_concat_blank`** — white space at the end of a line, such as a carriage return.
* **`typedLines_eq`** — what is typed, in terms of the lines that are read.
* **`typedLines_of_isUtf8`**, **`typedLines_of_not_isUtf8`** — typed lines and the lines of a script.
* **`Session.runTyped_eq_runScript`**, **`Session.exists_runTyped_eq`** — typing and scripts.
* **`runProgram_feedings_agree`** — the three ways of running the program. -/

namespace PipeShell

/-! ## Carriage returns -/

/-- White space at the end of a line makes no difference to its plan. -/
theorem planLine_concat_blank {c : Char} (hc : isWhiteSpace c = true) (store : Store) (line : Text) :
    planLine store (line ++ [c]) = planLine store line := by
  rw [planLine, planLine, lex_concat_blank hc]

/-- White space at the end of a line makes no difference to what it does. -/
theorem Session.submit_concat_blank {c : Char} (hc : isWhiteSpace c = true) (disk : Disk)
    (s : Session) (sinks : Sinks) (line : Text) :
    s.submit disk sinks (line ++ [c]) = s.submit disk sinks line := by
  rw [submit, submit, reply, reply, planLine_concat_blank hc]

/-- A line is left as it is, or loses just the carriage return at its end. -/
theorem dropCarriageReturn_eq_or (line : Bytes) :
    dropCarriageReturn line = line ∨ line = dropCarriageReturn line ++ [carriageReturn] := by
  unfold dropCarriageReturn
  split
  next h =>
    obtain ⟨init, rfl⟩ := List.getLast?_eq_some_iff.1 h
    exact .inr (by simp)
  next => exact .inl rfl

/-- A carriage return has no part in the validity of a line. -/
theorem isUtf8_dropCarriageReturn_iff {line : Bytes} :
    IsUtf8 (dropCarriageReturn line) ↔ IsUtf8 line := by
  rcases dropCarriageReturn_eq_or line with h | h
  · rw [h]
  · generalize dropCarriageReturn line = init at h ⊢
    subst h
    exact ⟨fun hinit => hinit.append (isUtf8_utf8 ['\r']), fun hline =>
      (IsUtf8.of_append (by decide) hline).1⟩

/-- The text of a valid line is its command line, but for a carriage return. -/
theorem lossyText_eq_commandLine_or {line : Bytes} (h : IsUtf8 line) :
    line.lossyText = commandLine line ∨ line.lossyText = commandLine line ++ ['\r'] := by
  have hdropped := isUtf8_dropCarriageReturn_iff.2 h
  unfold commandLine
  rcases dropCarriageReturn_eq_or line with hline | hline
  · exact .inl (by rw [hline])
  · obtain ⟨t, ht⟩ := hdropped
    have hutf8 : line = Text.utf8 (t ++ ['\r']) := by
      rw [hline, ht, Text.utf8_append]
      rfl
    exact .inr (by rw [ht, hutf8, Bytes.lossyText_utf8, Bytes.lossyText_utf8])

/-! ## Lines -/

/-- Lines and what follows them are valid if and only if each of them is. -/
theorem isUtf8_terminated_append_iff {ls : List Bytes} {rest : Bytes} :
    IsUtf8 (terminated ls ++ rest) ↔ (∀ l ∈ ls, IsUtf8 l) ∧ IsUtf8 rest := by
  induction ls with
  | nil => simp
  | cons l ls ih =>
    rw [terminated_cons, List.append_assoc, List.cons_append, List.forall_mem_cons, and_assoc, ← ih]
    exact ⟨IsUtf8.of_append (by decide), fun h => h.1.append ((isUtf8_utf8 ['\n']).append h.2)⟩

/-- **An input is valid exactly if all its lines are.** -/
theorem isUtf8_iff_forall_lines {input : Bytes} :
    IsUtf8 input ↔ ∀ l ∈ input.lines, IsUtf8 l := by
  obtain ⟨ls, rest, rfl, hls, hrest⟩ := exists_terminated input
  rw [Bytes.lines_terminated hls hrest, isUtf8_terminated_append_iff, List.forall_mem_append]
  refine and_congr_right fun _ => ?_
  split
  next hempty => simpa [hempty] using isUtf8_utf8 []
  next => simp

/-- The lines of a typed input keep their carriage return where no line feed follows it. -/
theorem rawLines_terminated {ls : List Bytes} {rest : Bytes} (hls : ∀ l ∈ ls, lineFeed ∉ l)
    (hrest : lineFeed ∉ rest) :
    rawLines (terminated ls ++ rest)
      = ls.map dropCarriageReturn ++ if rest = [] then [] else [rest] := by
  rw [rawLines, cutLines_terminated hls hrest]

/-- The command lines of a source that does not fail. -/
theorem commandLines_terminated {ls : List Bytes} {rest : Bytes} (hls : ∀ l ∈ ls, lineFeed ∉ l)
    (hrest : lineFeed ∉ rest) :
    Source.commandLines { data := terminated ls ++ rest }
      = ls.map commandLine ++ if rest = [] then [] else [commandLine rest] := by
  have hlines := Bytes.lines_terminated hls hrest
  rw [Source.commandLines, if_neg (by simp), hlines, List.map_append]
  split <;> rfl

/-! ## Typed lines -/

/-- Valid lines are typed, and then those that follow. -/
theorem decodedLines_append {ls : List Bytes} (h : ∀ l ∈ ls, IsUtf8 l) (more : List Bytes) :
    decodedLines (ls ++ more)
      = (ls.map Bytes.lossyText ++ (decodedLines more).1, (decodedLines more).2) := by
  induction ls with
  | nil => rfl
  | cons l ls ih =>
    obtain ⟨⟨t, rfl⟩, hls⟩ := List.forall_mem_cons.1 h
    rw [List.cons_append, decodedLines, Bytes.text?_eq_some_iff.2 rfl, ih hls]
    simp

/-- Nothing is typed from the first line on that is not valid. -/
theorem decodedLines_cons_of_not {l : Bytes} (h : ¬ IsUtf8 l) (more : List Bytes) :
    decodedLines (l :: more) = ([], false) := by
  rw [decodedLines, Bytes.text?_eq_none_iff.2 h]

/-- What is typed is the text of a line. -/
theorem utf8_mem_of_mem_decodedLines {ls : List Bytes} {t : Text} (h : t ∈ (decodedLines ls).1) :
    t.utf8 ∈ ls := by
  induction ls with
  | nil => simp [decodedLines] at h
  | cons l ls ih =>
    rw [decodedLines] at h
    split at h
    · simp at h
    next u hu =>
      rcases List.mem_cons.1 h with rfl | h
      · rw [← Bytes.text?_eq_some_iff.1 hu]
        exact List.mem_cons_self
      · exact List.mem_cons_of_mem l (ih h)

/-- Every byte of a typed line is one of the input. -/
theorem mem_of_mem_rawLines {input line : Bytes} (h : line ∈ rawLines input) {b : UInt8}
    (hb : b ∈ line) : b ∈ input := by
  obtain ⟨ls, rest, rfl, hls, hrest⟩ := exists_terminated input
  rw [rawLines_terminated hls hrest] at h
  rcases List.mem_append.1 h with h | h
  · obtain ⟨l, hl, rfl⟩ := List.mem_map.1 h
    have hmem : b ∈ l := dropCarriageReturn_subset l hb
    exact List.mem_append_left _
      (List.mem_flatMap.2 ⟨l, hl, List.mem_append_left _ hmem⟩)
  · split at h
    · simp at h
    · rw [List.mem_singleton.1 h] at hb
      exact List.mem_append_right _ hb

/-- **Without backspaces, lines are typed as they stand.** -/
theorem typedLines_eq {input : Bytes} (h : 0x08 ∉ input) :
    typedLines input = decodedLines (rawLines input) := by
  have hmap : (decodedLines (rawLines input)).1.map editedLine
      = (decodedLines (rawLines input)).1 := by
    refine (List.map_congr_left fun t ht => ?_).trans (List.map_id _)
    refine editedLine_of_not_mem fun hback => h ?_
    exact mem_of_mem_rawLines (utf8_mem_of_mem_decodedLines ht)
      (List.mem_flatMap.2 ⟨backspace, hback, by decide⟩)
  exact Prod.ext hmap rfl

/-- Valid lines are typed as the command lines of a script. -/
theorem decodedLines_map_append {ls : List Bytes} (h : ∀ l ∈ ls, IsUtf8 l) (more : List Bytes) :
    decodedLines (ls.map dropCarriageReturn ++ more)
      = (ls.map commandLine ++ (decodedLines more).1, (decodedLines more).2) := by
  have hdropped : ∀ l ∈ ls.map dropCarriageReturn, IsUtf8 l := by
    intro _ hline
    obtain ⟨l, hl, rfl⟩ := List.mem_map.1 hline
    exact isUtf8_dropCarriageReturn_iff.2 (h l hl)
  rw [decodedLines_append hdropped, List.map_map]
  rfl

/-- **What is typed of a valid input**: its command lines, but the unterminated one as it stands. -/
theorem typedLines_of_isUtf8 {ls : List Bytes} {rest : Bytes} (hls : ∀ l ∈ ls, lineFeed ∉ l)
    (hrest : lineFeed ∉ rest) (hback : 0x08 ∉ terminated ls ++ rest)
    (h : IsUtf8 (terminated ls ++ rest)) :
    typedLines (terminated ls ++ rest)
      = (ls.map commandLine ++ if rest = [] then [] else [rest.lossyText], true) := by
  obtain ⟨hutf8, hlast⟩ := isUtf8_terminated_append_iff.1 h
  rw [typedLines_eq hback, rawLines_terminated hls hrest, decodedLines_map_append hutf8]
  split
  next => rfl
  next =>
    have hone := decodedLines_append (List.forall_mem_singleton.2 hlast) []
    rw [List.append_nil] at hone
    rw [hone]
    rfl

/-- **What is typed of an invalid input**: the lines of a script up to the first that is not valid. -/
theorem typedLines_of_not_isUtf8 {input : Bytes} (hback : 0x08 ∉ input)
    (h : ∃ line ∈ input.lines, ¬ IsUtf8 line) :
    ∃ (before : List Bytes) (bad : Bytes) (after : List Bytes), input.lines = before ++ bad :: after ∧
      (∀ line ∈ before, IsUtf8 line) ∧ ¬ IsUtf8 bad ∧
      typedLines input = (Source.commandLines { data := terminated before }, false) := by
  obtain ⟨ls, rest, rfl, hls, hrest⟩ := exists_terminated input
  have hbefore : ∀ {before : List Bytes}, (∀ l ∈ before, lineFeed ∉ l) →
      Source.commandLines { data := terminated before } = before.map commandLine := by
    intro before hlines
    have hcommands := commandLines_terminated hlines (List.not_mem_nil (a := lineFeed))
    simpa using hcommands
  have hwhole : ¬ IsUtf8 (terminated ls ++ rest) := by
    rw [isUtf8_iff_forall_lines]
    simpa using h
  rw [typedLines_eq hback, rawLines_terminated hls hrest, Bytes.lines_terminated hls hrest]
  by_cases hall : ∀ l ∈ ls, IsUtf8 l
  · -- it is the line at the end, without a line feed
    have hbad : ¬ IsUtf8 rest := fun hlast =>
      hwhole (isUtf8_terminated_append_iff.2 ⟨hall, hlast⟩)
    have hempty : rest ≠ [] := by
      rintro rfl
      exact hbad (isUtf8_utf8 [])
    refine ⟨ls, rest, [], by rw [if_neg hempty], hall, hbad, ?_⟩
    rw [if_neg hempty, decodedLines_map_append hall, decodedLines_cons_of_not hbad, hbefore hls,
      List.append_nil]
  · obtain ⟨l, hl, hnot⟩ : ∃ l ∈ ls, ¬ IsUtf8 l := by simpa using hall
    obtain ⟨bad, hfind⟩ := Option.isSome_iff_exists.1
      (List.find?_isSome (p := fun l => decide (¬ IsUtf8 l)).2 ⟨l, hl, by simpa using hnot⟩)
    obtain ⟨hbad, before, after, rfl, hvalid⟩ := List.find?_eq_some_iff_append.1 hfind
    simp only [decide_not, Bool.not_eq_true', decide_eq_false_iff_not, Bool.not_not,
      decide_eq_true_eq] at hbad hvalid
    refine ⟨before, bad, after ++ if rest = [] then [] else [rest], by simp, hvalid, hbad, ?_⟩
    rw [List.map_append, List.append_assoc, decodedLines_map_append hvalid, List.map_cons,
      List.cons_append, decodedLines_cons_of_not (mt isUtf8_dropCarriageReturn_iff.1 hbad),
      hbefore fun l hl => hls l (List.mem_append_left _ hl), List.append_nil]

/-! ## Typing and scripts -/

/-- Lines do the same after the same lines. -/
theorem Session.submitAll_append_congr {disk : Disk} {ls ms : List Text}
    (h : ∀ (s : Session) (sinks : Sinks), s.submitAll disk sinks ls = s.submitAll disk sinks ms)
    (before : List Text) (s : Session) (sinks : Sinks) :
    s.submitAll disk sinks (before ++ ls) = s.submitAll disk sinks (before ++ ms) := by
  rw [submitAll_append, submitAll_append]
  simp only [h]

/-- **Typed or not, the lines of a valid input do the same.** -/
theorem Session.submitAll_typedLines {input : Bytes} (hback : 0x08 ∉ input) (h : IsUtf8 input)
    (disk : Disk) (s : Session) (sinks : Sinks) :
    (typedLines input).2 = true ∧ s.submitAll disk sinks (typedLines input).1
      = s.submitAll disk sinks (Source.commandLines { data := input }) := by
  obtain ⟨ls, rest, rfl, hls, hrest⟩ := exists_terminated input
  rw [typedLines_of_isUtf8 hls hrest hback h, commandLines_terminated hls hrest]
  refine ⟨rfl, submitAll_append_congr (fun s sinks => ?_) _ s sinks⟩
  split
  next => rfl
  next =>
    rcases lossyText_eq_commandLine_or (isUtf8_terminated_append_iff.1 h).2 with hlast | hlast
    · rw [hlast]
    · -- the carriage return that only the typed line keeps
      rw [hlast, submitAll, submitAll, submit_concat_blank (by decide)]

/-- A script on outputs without limits is executed to its end. -/
theorem Session.result_run_data (disk : Disk) (s : Session) (script : Bytes) :
    (s.run disk {} { data := script }).result = .ok () := by
  obtain ⟨o, e, hrun⟩ := s.submitAll_holding disk (Source.commandLines { data := script })
  rw [run_data]
  exact congrArg Outcome.result (hrun [] [])

/-- **A valid input is executed alike as it is typed and as a script.** -/
theorem Session.runTyped_eq_runScript {input : Bytes} (hback : 0x08 ∉ input) (h : IsUtf8 input)
    (disk : Disk) (s : Session) : s.runTyped disk input = s.runScript disk input := by
  obtain ⟨hcomplete, hlines⟩ := submitAll_typedLines hback h disk s {}
  rw [runScript, run_data, ← hlines, runTyped]
  simp only [hcomplete, if_pos]

/-- **An invalid input is executed as the script of the lines before the first that is not valid**, and
then reported. -/
theorem Session.exists_runTyped_eq {input : Bytes} (hback : 0x08 ∉ input)
    (h : ∃ line ∈ input.lines, ¬ IsUtf8 line) (disk : Disk) (s : Session) :
    ∃ (before : List Bytes) (bad : Bytes) (after : List Bytes), input.lines = before ++ bad :: after ∧
      (∀ line ∈ before, IsUtf8 line) ∧ ¬ IsUtf8 bad ∧
      s.runTyped disk input
        = { code := .failure, out := (s.runScript disk (terminated before)).out,
            err := (s.runScript disk (terminated before)).err ++ notTextReport } := by
  obtain ⟨before, bad, after, hlines, hvalid, hbad, htyped⟩ := typedLines_of_not_isUtf8 hback h
  refine ⟨before, bad, after, hlines, hvalid, hbad, ?_⟩
  rw [runTyped, htyped, runScript, run_data]
  rfl

/-! ## The program -/

/-- With nothing but a language, the program executes what is typed. -/
theorem runProgram_typed {args : List Text} {l : Locale}
    (h : parseArguments args = .ok (.start { locale := l })) (dir : Text) (disk : Disk)
    (input : Bytes) :
    runProgram dir disk args input = Session.runTyped { dir := dir, locale := l } disk input := by
  rw [runProgram, h]
  rfl

/-- In a batch, the program executes its input as a script. -/
theorem runProgram_batch {args : List Text} {l : Locale}
    (h : parseArguments args = .ok (.start { locale := l, batch := true })) (dir : Text) (disk : Disk)
    (input : Bytes) :
    runProgram dir disk args input = Session.runScript { dir := dir, locale := l } disk input := by
  rw [runProgram, h]
  rfl

/-- With a script that can be read, the program executes that, whatever its input is. -/
theorem runProgram_script {args : List Text} {l : Locale} {b : Bool} {path : Text} {disk : Disk}
    {script : Bytes} (h : parseArguments args = .ok (.start { locale := l, batch := b, script := some path }))
    (hdisk : disk path = .ok script) (dir : Text) (input : Bytes) :
    runProgram dir disk args input = Session.runScript { dir := dir, locale := l } disk script := by
  rw [runProgram, h]
  simp only [Invocation.run, hdisk]

end PipeShell
