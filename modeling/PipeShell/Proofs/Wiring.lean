import PipeShell.Proofs.Reporting

/-! # How stages are wired together

Between two stages there is nothing but the bytes that the first has printed. So a stage that copies
its input can be put anywhere, and what stands before a stage that does not read is of no consequence
to what comes after.

* **`Stage.copy`** — the stage that copies its input.
* **`Stage.ReadsInput`** — which stages depend on what stands before them.
* **`Session.runPipeline_wiring`** — putting in a copy, and taking out what is not read. -/

namespace PipeShell

/-! ## Copying -/

/-- **The stage that copies its input**: `cat` without arguments. -/
def Stage.copy : Stage := ⟨Command.cat.name, []⟩

/-- What the stage is found to do. -/
theorem Session.transcript_copy {s : Session} (hs : s.commands = Command.all) (disk : Disk)
    (input : Source) : s.transcript disk .copy input = concatenate Command.cat.name
      (s.surroundings disk) [] input := by
  have hcat : s.command? Stage.copy.name = some .cat := command?_name hs .cat
  rw [transcript, hcat]
  rfl

/-- It prints what it reads. -/
theorem Session.stageOutput_copy {s : Session} (hs : s.commands = Command.all) (disk : Disk)
    (data : Bytes) : s.stageOutput disk .copy data = data := by
  rw [stageOutput, transcript_copy hs]
  exact List.append_nil data

/-- It reports nothing and succeeds. -/
theorem Session.reports_copy {s : Session} (hs : s.commands = Command.all) (disk : Disk) :
    s.stageReports disk .copy = [] ∧ s.stageCode disk .copy = .success := by
  have hcat : s.command? Stage.copy.name = some .cat := command?_name hs .cat
  rw [stageReports, stageCode, hcat]
  exact ⟨rfl, rfl⟩

/-- **What flows through a copy comes out of it unchanged.** -/
theorem Session.flow_insert_copy {s : Session} (hs : s.commands = Command.all) (disk : Disk)
    (data : Bytes) (before after : List Stage) :
    s.flow disk data (before ++ .copy :: after) = s.flow disk data (before ++ after) := by
  rw [flow_append, flow_append, flow_cons, stageOutput_copy hs]

/-! ## Stages that do not read -/

/-- **Does the stage read its input?** The two commands for files do if they are given no arguments,
and so does a search that names no file. -/
def Stage.ReadsInput (stage : Stage) : Prop :=
  (stage.name = Command.cat.name ∨ stage.name = Command.wc.name) ∧ stage.args = [] ∨
    stage.name = Command.grep.name ∧ ∃ r, parseSearch stage.args = .ok r ∧ r.files = []

/-- **A stage that does not read its input does the same on every input.** -/
theorem Session.transcript_of_not_readsInput {stage : Stage} (h : ¬ stage.ReadsInput) (s : Session)
    (disk : Disk) (input input' : Source) :
    s.transcript disk stage input = s.transcript disk stage input' := by
  unfold transcript
  cases hc : s.command? stage.name with
  | none => rfl
  | some c =>
    have hname := name_of_command? hc
    cases c with
    | echo | pwd => rfl
    | cat =>
      cases hargs : stage.args with
      | nil => exact absurd (.inl ⟨.inl hname, hargs⟩) h
      | cons arg args => rfl
    | wc =>
      cases hargs : stage.args with
      | nil => exact absurd (.inl ⟨.inr hname, hargs⟩) h
      | cons arg args => rfl
    | grep =>
      cases hread : parseSearch stage.args with
      | error e => simp only [Command.transcript, hread]
      | ok r =>
        simp only [Command.transcript, hread]
        cases hfiles : r.files with
        | nil => exact absurd (.inr ⟨hname, r, hread, hfiles⟩) h
        | cons file files =>
          unfold SearchRequest.transcript
          rw [hfiles]
          cases files <;> rfl

/-- **What goes into such a stage is lost**, and what comes out after it does not depend on what went
in before it. -/
theorem Session.flow_of_not_readsInput {stage : Stage} (h : ¬ stage.ReadsInput) (s : Session)
    (disk : Disk) (data data' : Bytes) (before after : List Stage) :
    s.flow disk data (before ++ stage :: after) = s.flow disk data' (stage :: after) := by
  rw [flow_append, flow_cons, flow_cons, stageOutput, stageOutput,
    s.transcript_of_not_readsInput h disk]

/-! ## The two laws -/

/-- The code of a pipeline is settled by its last stages. -/
theorem Session.lastCode_append_cons (s : Session) (disk : Disk) (before : List Stage)
    (stage : Stage) (after : List Stage) :
    s.lastCode disk (before ++ stage :: after) = s.lastCode disk (stage :: after) := by
  rw [lastCode, lastCode, List.getLast?_append, List.getLast?_cons, Option.some_or]

/-- **Copies can be put in, and what is not read can be taken out.** On outputs that do not fail, a
stage that copies its input changes nothing that a pipeline writes, wherever it is put, and changes the
exit code only if it is put last, where the pipeline then succeeds. And if a stage does not read its
input, the stages before it can be taken out: the pipeline then writes the same output and ends with
the same code, and of its diagnostics just those of the stages taken out are missing. -/
theorem Session.runPipeline_wiring {s : Session} (hs : s.commands = Command.all) (disk : Disk)
    (before after : List Stage) (o e : Bytes) :
    let run (stages : List Stage) := s.runPipeline disk (.holding o e) stages
    ((run (before ++ .copy :: after)).1 = (run (before ++ after)).1 ∧
      (run (before ++ .copy :: after)).2
        = if after = [] then .ok .success else (run (before ++ after)).2) ∧
    ∀ stage : Stage, ¬ stage.ReadsInput →
      (run (before ++ stage :: after)).1.out = (run (stage :: after)).1.out ∧
      (run (before ++ stage :: after)).2 = (run (stage :: after)).2 ∧
      ∃ removed kept : Bytes, (run before).1.err.written = e ++ removed ∧
        (run (stage :: after)).1.err.written = e ++ kept ∧
        (run (before ++ stage :: after)).1.err.written = e ++ (removed ++ kept) := by
  intro run
  simp only [run, runPipeline_holding]
  refine ⟨⟨?_, ?_⟩, fun stage hreads => ⟨?_, ?_, ?_⟩⟩
  · rw [flow_insert_copy hs, List.flatMap_append, List.flatMap_append, List.flatMap_cons,
      (reports_copy hs disk).1, List.nil_append]
  · cases after with
    | nil => rw [lastCode_append_cons, lastCode, List.getLast?_singleton, Option.elim_some,
        (reports_copy hs disk).2, if_pos rfl]
    | cons next after =>
      rw [if_neg (List.cons_ne_nil next after), lastCode_append_cons, lastCode_append_cons,
        ← List.singleton_append, lastCode_append_cons]
  · rw [s.flow_of_not_readsInput hreads disk [] []]
    rfl
  · rw [lastCode_append_cons]
  · refine ⟨_, _, rfl, rfl, ?_⟩
    rw [List.flatMap_append, reportOf_append]
    rfl

/-- The stages in front of a search of a file report two things, and the search is counted without
them. -/
theorem Session.runPipeline_wiring_of_search :
    let s : Session := { dir := [], locale := .en }
    let disk : Disk := .ofList [("f".toList, .ok (Text.utf8 "b\nab".toList))]
    let before : List Stage := [⟨"cat".toList, ["g".toList]⟩, ⟨"x".toList, []⟩]
    let search : Stage := ⟨"grep".toList, ["--".toList, "a".toList, "f".toList]⟩
    let after : List Stage := [⟨"wc".toList, []⟩]
    let run (stages : List Stage) := s.runPipeline disk (.holding [] []) stages
    s.commands = Command.all ∧ ¬ search.ReadsInput ∧
      (run (search :: after)).1.out.written = Text.utf8 " 1\t1\t3\n".toList ∧
      (run (before ++ search :: after)).1.out = (run (search :: after)).1.out ∧
      (run (search :: .copy :: after)).1 = (run (search :: after)).1 := by
  intro s disk before search after run
  have hs : s.commands = Command.all := rfl
  have hreads : ¬ search.ReadsInput := by
    have hread : parseSearch search.args = .ok ⟨{}, "a".toList, ["f".toList]⟩ := rfl
    rintro (⟨-, hargs⟩ | ⟨-, r, hr, hfiles⟩)
    · cases hargs
    · obtain rfl := Except.ok.inj (hread.symm.trans hr)
      cases hfiles
  have hcut := (runPipeline_wiring hs disk before after [] []).2 search hreads
  have hcopy := (runPipeline_wiring hs disk [search] after [] []).1.1
  exact ⟨hs, hreads, by decide +kernel, hcut.1, hcopy⟩

end PipeShell
