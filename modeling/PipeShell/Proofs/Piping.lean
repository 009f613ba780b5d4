import PipeShell.Proofs.Filtering
import PipeShell.Proofs.Gathering

/-! # Searching files and searching what is printed of them

A search does the same with a file that it opens and with the same bytes when they come in through a
pipe. Several files printed one after the other are searched like each of them, as long as no line goes
on from one file into the next and no lines are shown after a match, which could reach over as well.

* **`readSearch_append`** — files behind the arguments of a search.
* **`Bytes.lines_flatten`**, **`SearchRequest.printed_flatten`** — contents whose lines do not go on.
* **`Session.search_printed_files`** — the two ways to search files. -/

namespace PipeShell

/-! ## Files behind the arguments -/

/-- **Arguments that ask for a search still do with files behind them**, and these are searched as
well. -/
theorem readSearch_append {o : SearchOptions} {args : List Text} {r : SearchRequest}
    (h : readSearch o args = .ok r) (files : List Text) :
    readSearch o (args ++ files) = .ok { r with files := r.files ++ files } := by
  fun_induction readSearch o args with
  | case1 | case2 | case5 | case7 | case8 => cases h
  | case3 o pattern given =>
    obtain rfl := Except.ok.inj h
    rfl
  | case4 o arg rest hne hpattern =>
    obtain rfl := Except.ok.inj h
    rw [List.cons_append, readSearch.eq_def]
    simp only [if_neg hne, hpattern]
  | case6 o arg rest hne flags hflags o' hcluster ih =>
    rw [List.cons_append, readSearch.eq_def]
    simp only [if_neg hne, hflags, hcluster]
    exact ih h
  | case9 o arg hne flags hflags o' hcluster count rest o'' hcount ih =>
    rw [List.cons_append, List.cons_append, readSearch.eq_def]
    simp only [if_neg hne, hflags, hcluster, hcount]
    exact ih h

/-! ## Contents whose lines do not go on -/

/-- **The lines of some contents one after the other**, if each of them but the last ends its last
line. -/
theorem Bytes.lines_flatten {contents : List Bytes} (h : ∀ c ∈ contents.dropLast, EndsLine c) :
    lines contents.flatten = contents.flatMap lines := by
  induction contents with
  | nil => rfl
  | cons c rest ih =>
    cases rest with
    | nil => simp
    | cons next rest =>
      rw [List.dropLast_cons_cons] at h
      obtain ⟨hc, hrest⟩ := List.forall_mem_cons.1 h
      rw [List.flatten_cons, lines_append hc, ih hrest]
      exact List.flatMap_cons.symm

/-- **What a search prints of such contents**, if it shows no lines after a match: what it prints of each
of them. -/
theorem SearchRequest.printed_flatten {r : SearchRequest} (hafter : r.options.after = 0)
    {contents : List Bytes} (h : ∀ c ∈ contents.dropLast, EndsLine c) :
    r.printed none contents.flatten = contents.flatMap (r.printed none) := by
  have heach : r.printed none = fun data =>
      terminated (data.lines.filter (matchesLine r.options.mode r.pattern)) :=
    funext (printed_of_after hafter)
  rw [heach]
  simp only [Bytes.lines_flatten h, terminated, List.filter_flatMap, List.flatMap_assoc]

/-! ## The two ways -/

/-- **A search of one file that can be read** prints what is found in it, without a label. -/
theorem Session.stageOutput_search_file {s : Session} (hs : s.commands = Command.all) {search : Stage}
    {r : SearchRequest} (h : search.Searches r) (disk : Disk) {name : Text} {content : Bytes}
    (hread : (s.surroundings disk).read? name = some content) (data : Bytes) :
    s.stageOutput disk { search with args := search.args ++ [name] } data = r.printed none content := by
  have hgrep : s.command? { search with args := search.args ++ [name] }.name = some .grep :=
    (command?_eq_some_iff hs).2 h.name
  have hargs : parseSearch (search.args ++ [name]) = .ok { r with files := [name] } := by
    rw [parseSearch, readSearch_append h.args, h.files]
    rfl
  rw [stageOutput_of_command hgrep]
  simp only [Command.transcript, hargs, SearchRequest.transcript, Surroundings.overFiles,
    Transcript.finish, List.map_singleton, Surroundings.showFile, hread, List.append_nil,
    List.flatMap_singleton]
  rfl

/-- The files that can be read are all of them if each of them can be read. -/
theorem Surroundings.readable_map_fst {s : Surroundings} {files : List (Text × Bytes)}
    (h : ∀ f ∈ files, s.read? f.1 = some f.2) : s.readable (files.map Prod.fst) = files := by
  induction files with
  | nil => rfl
  | cons f files ih =>
    obtain ⟨hf, hfiles⟩ := List.forall_mem_cons.1 h
    rw [List.map_cons, readable_cons_of_some hf, ih hfiles]

/-- **Files are searched alike through a pipe and by name.** For every list of arguments that asks for a
search of the input, whatever the options and the pattern are, and for any files that can be read: when
`cat` prints the files into the search, the output is that of the searches of each file by its name, one
after the other, if there is just one file; and for any number of files if no lines are shown after a
match and each file but the last is empty or ends with a line feed. -/
theorem Session.search_printed_files {s : Session} (hs : s.commands = Command.all) {search : Stage}
    {r : SearchRequest} (h : search.Searches r) (disk : Disk) {files : List (Text × Bytes)}
    (hread : ∀ f ∈ files, (s.surroundings disk).read? f.1 = some f.2)
    (hcase : files.length = 1 ∨ r.options.after = 0 ∧ ∀ f ∈ files.dropLast, EndsLine f.2) :
    let run (stages : List Stage) := (s.runPipeline disk (.holding [] []) stages).1.out.written
    let alone (f : Text × Bytes) := run [{ search with args := search.args ++ [f.1] }]
    run [⟨Command.cat.name, files.map Prod.fst⟩, search] = files.flatMap alone ∧
      ∀ f ∈ files, alone f = r.printed none f.2 := by
  intro run alone
  have halone : ∀ f ∈ files, alone f = r.printed none f.2 := fun f hf => by
    simp only [alone, run, runPipeline_holding, flow_cons, flow_nil,
      stageOutput_search_file hs h disk (hread f hf)]
    rfl
  refine ⟨?_, halone⟩
  have hpiped : run [⟨Command.cat.name, files.map Prod.fst⟩, search]
      = r.printed none (files.map Prod.snd).flatten := by
    simp only [run, runPipeline_holding, flow_cons, flow_nil, stageOutput_of_searches hs h,
      stageOutput_cat hs, Surroundings.readable_map_fst hread]
    rfl
  have hprinted : r.printed none (files.map Prod.snd).flatten
      = (files.map Prod.snd).flatMap (r.printed none) := by
    rcases hcase with hone | ⟨hafter, hends⟩
    · obtain ⟨f, rfl⟩ := List.length_eq_one_iff.1 hone
      simp
    · refine SearchRequest.printed_flatten hafter fun c hc => ?_
      rw [← List.map_dropLast] at hc
      obtain ⟨f, hf, rfl⟩ := List.mem_map.1 hc
      exact hends f hf
  rw [hpiped, hprinted, List.flatMap_map, List.flatMap_def, List.flatMap_def,
    List.map_congr_left halone]

/-- Between two files one is empty, and the last one has no line feed at its end; and a single file is
searched with a line after each match. -/
theorem Session.search_printed_files_of_empty_file :
    let s : Session := { dir := [], locale := .en }
    let f : Text × Bytes := ("f".toList, Text.utf8 "a\nB\n".toList)
    let g : Text × Bytes := ("g".toList, [])
    let h : Text × Bytes := ("h".toList, Text.utf8 "b c\nbc".toList)
    let disk : Disk := .ofList [(f.1, .ok f.2), (g.1, .ok g.2), (h.1, .ok h.2)]
    let words : Stage := ⟨"grep".toList, ["-wi".toList, "b".toList]⟩
    let window : Stage := ⟨"grep".toList, ["-A".toList, "1".toList, "--".toList, "b ".toList]⟩
    let run (stages : List Stage) := (s.runPipeline disk (.holding [] []) stages).1.out.written
    s.commands = Command.all ∧
      words.Searches ⟨{ mode := ⟨true, true⟩ }, "b".toList, []⟩ ∧
      window.Searches ⟨{ after := 1 }, "b ".toList, []⟩ ∧
      (∀ file ∈ [f, g, h], (s.surroundings disk).read? file.1 = some file.2) ∧
      (∀ file ∈ [f, g], EndsLine file.2) ∧
      run [⟨"cat".toList, [f.1, g.1, h.1]⟩, words] = Text.utf8 "B\nb c\n".toList ∧
      run [⟨"cat".toList, [h.1]⟩, window] = Text.utf8 "b c\nbc\n".toList := by
  intro s f g h disk words window run
  have hs : s.commands = Command.all := rfl
  have hwords : words.Searches ⟨{ mode := ⟨true, true⟩ }, "b".toList, []⟩ := ⟨rfl, rfl, rfl⟩
  have hwindow : window.Searches ⟨{ after := 1 }, "b ".toList, []⟩ := ⟨rfl, rfl, rfl⟩
  have hread : ∀ file ∈ [f, g, h], (s.surroundings disk).read? file.1 = some file.2 := by
    decide +kernel
  have hends : ∀ file ∈ [f, g], EndsLine file.2 := by decide +kernel
  have hlast : ∀ file ∈ [h], (s.surroundings disk).read? file.1 = some file.2 := by decide +kernel
  refine ⟨hs, hwords, hwindow, hread, hends, ?_, ?_⟩
  · exact (search_printed_files hs hwords disk hread (.inr ⟨rfl, hends⟩)).1.trans (by decide +kernel)
  · exact (search_printed_files hs hwindow disk hlast (.inl rfl)).1.trans (by decide +kernel)

end PipeShell
