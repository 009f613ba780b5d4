import PipeShell.Proofs.Wiring

/-! # Searches in a row

A search prints whole lines, and it prints them as it has read them, up to the line feed that the last
one may lack. So a search that reads what another one prints reads just the lines that the other shows.
The same search once more shows them all again, two searches without lines after the matches can be
swapped, and a search that is content with less can be left out in front of a stricter one.

* **`SearchRequest.lines_printed`** — what a search prints is read as the lines that it shows.
* **`MatchMode.Laxer`**, **`matchesLine_of_laxer`** — one mode of matching accepts what another does.
* **`Session.Interchangeable`** — two rows of stages that no pipeline can tell apart.
* **`Stage.Searches`** — a stage that searches its input.
* **`Session.search_twice`** — the same search twice.
* **`Session.searches_commute_and_absorb`** — two different searches. -/

namespace PipeShell

/-! ## What is printed is read again -/

/-- **What a search prints is read as the lines that it shows**, also if the last of them had no line
feed. -/
theorem SearchRequest.lines_printed (r : SearchRequest) (data : Bytes) :
    (r.printed none data).lines
      = select (matchesLine r.options.mode r.pattern) r.options.after 0 data.lines := by
  -- a line holds no line feed, so that what is printed is cut where it has been put together
  have hshown : ∀ line ∈ select (matchesLine r.options.mode r.pattern) r.options.after 0 data.lines,
      lineFeed ∉ line := fun line hline =>
    Bytes.lineFeed_not_mem_of_mem_lines ((select_sublist _ _ _ _).subset hline)
  have hlines := Bytes.lines_terminated hshown List.not_mem_nil
  rwa [List.append_nil, if_pos rfl, List.append_nil] at hlines

/-- **A search of what it has printed prints the same.** -/
theorem SearchRequest.printed_printed (r : SearchRequest) (data : Bytes) :
    r.printed none (r.printed none data) = r.printed none data := by
  have hlines := r.lines_printed data
  rw [printed, PipeShell.printed, hlines, select_select]
  rfl

/-- Without lines after the matches, a search prints the lines that match. -/
theorem SearchRequest.printed_of_after {r : SearchRequest} (h : r.options.after = 0) (data : Bytes) :
    r.printed none data
      = terminated (data.lines.filter (matchesLine r.options.mode r.pattern)) := by
  rw [printed, PipeShell.printed, h, select_zero]
  rfl

/-- Such a search of what another one has printed prints the lines that both match. -/
theorem SearchRequest.printed_printed_of_after {r r' : SearchRequest} (h : r.options.after = 0)
    (h' : r'.options.after = 0) (data : Bytes) :
    r'.printed none (r.printed none data)
      = terminated (data.lines.filter fun line =>
          matchesLine r'.options.mode r'.pattern line && matchesLine r.options.mode r.pattern line) := by
  rw [printed_of_after h', lines_printed, h, select_zero, List.filter_filter]

/-! ## Laxer modes -/

/-- **Does a mode accept whatever another one does?** Characters that are equal in the one are equal in
the other, and so are the places where an occurrence can begin or end. -/
structure MatchMode.Laxer (lax strict : MatchMode) : Prop where
  sameChar : ∀ a b, strict.sameChar a b = true → lax.sameChar a b = true
  separates : ∀ piece, strict.separates piece = true → lax.separates piece = true

/-- Asking for whole words is stricter. -/
theorem MatchMode.laxer_of_wholeWords (ignoreCase : Bool) :
    Laxer ⟨ignoreCase, false⟩ ⟨ignoreCase, true⟩ where
  sameChar _ _ h := h
  separates piece _ := by cases piece <;> rfl

/-- Minding the case is stricter. -/
theorem MatchMode.laxer_of_ignoreCase (wholeWords : Bool) :
    Laxer ⟨true, wholeWords⟩ ⟨false, wholeWords⟩ where
  sameChar a b h := by
    have hsame : a = b := by simpa [MatchMode.sameChar] using h
    rw [hsame, sameChar_self]
  separates piece h := by cases piece <;> exact h

variable {lax strict : MatchMode} (hlax : lax.Laxer strict)

include hlax

/-- An occurrence at the start is one in a laxer mode, with the same pieces after it. -/
theorem afterPattern?_of_laxer {pattern : Text} {pieces rest : List Piece}
    (h : afterPattern? strict pattern pieces = some rest) :
    afterPattern? lax pattern pieces = some rest := by
  fun_induction afterPattern? strict pattern pieces with
  | case1 => exact h
  | case2 c cs d pieces hsame ih => rw [afterPattern?, if_pos (hlax.sameChar c d hsame), ih h]
  | case3 | case4 => cases h

/-- What can stand after an occurrence can stand after it in a laxer mode. -/
theorem occursHere_of_laxer {pattern : Text} {pieces : List Piece}
    (h : occursHere strict pattern pieces = true) : occursHere lax pattern pieces = true := by
  unfold occursHere at h
  split at h
  · cases h
  next hrest => rw [occursHere, afterPattern?_of_laxer hlax hrest]
  next piece rest hrest =>
    rw [occursHere, afterPattern?_of_laxer hlax hrest]
    exact hlax.separates piece h

/-- **A pattern that occurs occurs in a laxer mode**, by induction on the places to be tried: an
occurrence can begin wherever it can in the stricter mode. -/
theorem containsPattern_of_laxer {pattern : Text} {free free' : Bool} {pieces : List Piece}
    (hfree : free = true → free' = true) (h : containsPattern strict pattern free pieces = true) :
    containsPattern lax pattern free' pieces = true := by
  induction pieces generalizing free free' with
  | nil =>
    rw [containsPattern, Bool.and_eq_true] at h ⊢
    exact ⟨hfree h.1, occursHere_of_laxer hlax h.2⟩
  | cons piece pieces ih =>
    rw [containsPattern, Bool.or_eq_true, Bool.and_eq_true] at h ⊢
    rcases h with ⟨hhere, hoccurs⟩ | hlater
    · exact .inl ⟨hfree hhere, occursHere_of_laxer hlax hoccurs⟩
    · exact .inr (ih (hlax.separates piece) hlater)

/-- **A line that matches does so in a laxer mode.** -/
theorem matchesLine_of_laxer {pattern : Text} {line : Bytes}
    (h : matchesLine strict pattern line = true) : matchesLine lax pattern line = true :=
  containsPattern_of_laxer hlax id h

omit hlax

/-! ## Rows of stages -/

/-- What a pipeline does on any outputs is settled by its reply. -/
theorem Session.runPipeline_congr {s : Session} {disk : Disk} {xs ys : List Stage}
    (h : s.pipelineReply disk xs = s.pipelineReply disk ys) (sinks : Sinks) :
    s.runPipeline disk sinks xs = s.runPipeline disk sinks ys := by
  have hxs := s.runStages_eq disk {} sinks.err (by simp) xs
  have hys := s.runStages_eq disk {} sinks.err (by simp) ys
  rw [← pipelineReply, reportOf_nil, Sink.push_nil] at hxs hys
  rw [runPipeline, runPipeline, hxs, hys, h]

/-- **Can two rows of stages stand in for each other?** Whatever goes in, the same comes out; and a
pipeline that has the one in it does what it does with the other, on any outputs. -/
structure Session.Interchangeable (s : Session) (disk : Disk) (xs ys : List Stage) : Prop where
  flow : ∀ data, s.flow disk data xs = s.flow disk data ys
  runPipeline : ∀ before after sinks,
    s.runPipeline disk sinks (before ++ xs ++ after) = s.runPipeline disk sinks (before ++ ys ++ after)

/-- **Does a row of stages only filter?** There is a stage in it, and none of them reports anything. -/
structure Session.Filters (s : Session) (disk : Disk) (stages : List Stage) : Prop where
  ne_nil : stages ≠ []
  silent : ∀ stage ∈ stages, s.stageReports disk stage = []

/-- Such a row succeeds, and what stands behind it settles how the pipeline ends. -/
theorem Session.Filters.lastCode_eq {s : Session} {disk : Disk} {stages : List Stage}
    (h : s.Filters disk stages) (before after : List Stage) :
    s.lastCode disk (before ++ stages ++ after)
      = if after = [] then .success else s.lastCode disk after := by
  cases after with
  | cons next after => rw [lastCode_append_cons, if_neg (List.cons_ne_nil next after)]
  | nil =>
    -- the pipeline ends as its last stage does, and that one reports nothing
    rcases List.eq_nil_or_concat stages with hnil | ⟨init, last, rfl⟩
    · exact absurd hnil h.ne_nil
    · have hlast : s.stageCode disk last = .success :=
        stageCode_eq_success_iff.2 (h.silent last (by simp))
      rw [List.append_nil, List.concat_eq_append, ← List.append_assoc, lastCode_append_cons,
        lastCode, List.getLast?_singleton, Option.elim_some, hlast, if_pos rfl]

/-- **What a pipeline with such a row in it does**: of the row itself, only what comes out of it
matters. -/
theorem Session.Filters.pipelineReply_eq {s : Session} {disk : Disk} {stages : List Stage}
    (h : s.Filters disk stages) (before after : List Stage) :
    s.pipelineReply disk (before ++ stages ++ after)
      = ⟨(before ++ after).flatMap (s.stageReports disk),
          s.flow disk (s.flow disk (s.flow disk [] before) stages) after,
          if after = [] then .success else s.lastCode disk after⟩ := by
  have hsilent : stages.flatMap (s.stageReports disk) = [] := List.flatMap_eq_nil_iff.2 h.silent
  rw [Session.pipelineReply_eq, h.lastCode_eq, flow_append, flow_append]
  simp only [List.flatMap_append, hsilent, List.append_nil]

/-- Two such rows one after the other are one. -/
theorem Session.Filters.append {s : Session} {disk : Disk} {xs ys : List Stage}
    (hxs : s.Filters disk xs) (hys : s.Filters disk ys) : s.Filters disk (xs ++ ys) where
  ne_nil := List.append_ne_nil_of_left_ne_nil hxs.ne_nil ys
  silent := List.forall_mem_append.2 ⟨hxs.silent, hys.silent⟩

/-- **Two such rows stand in for each other if the same comes out of them.** -/
theorem Session.Filters.interchangeable {s : Session} {disk : Disk} {xs ys : List Stage}
    (hxs : s.Filters disk xs) (hys : s.Filters disk ys)
    (h : ∀ data, s.flow disk data xs = s.flow disk data ys) : s.Interchangeable disk xs ys where
  flow := h
  runPipeline before after :=
    runPipeline_congr (by rw [hxs.pipelineReply_eq, hys.pipelineReply_eq, h])

/-! ## Stages that search -/

/-- **Is the stage a search of its input?** Its arguments are accepted, and they name no file. -/
structure Stage.Searches (stage : Stage) (r : SearchRequest) : Prop where
  name : stage.name = Command.grep.name
  args : parseSearch stage.args = .ok r
  files : r.files = []

/-- **Every search can be asked for**, in any mode and for any text. -/
theorem Stage.exists_searches (m : MatchMode) (p : Text) :
    ∃ stage, Stage.Searches stage ⟨⟨m, 0⟩, p, []⟩ := by
  obtain ⟨ignoreCase, wholeWords⟩ := m
  -- the text may look like an option, so the options are ended before it
  refine ⟨⟨Command.grep.name, (if ignoreCase then ["-i".toList] else []) ++
    (if wholeWords then ["-w".toList] else []) ++ ["--".toList, p]⟩, rfl, ?_, rfl⟩
  cases ignoreCase <;> cases wholeWords <;> rfl

section Searches

variable {s : Session} (hs : s.commands = Command.all)

include hs

/-- **What such a stage does.** -/
theorem Session.transcript_of_searches {stage : Stage} {r : SearchRequest} (h : stage.Searches r)
    (disk : Disk) (input : Source) :
    s.transcript disk stage input = input.filter (r.printed none) := by
  have hgrep : s.command? stage.name = some .grep := (command?_eq_some_iff hs).2 h.name
  rw [transcript, hgrep]
  simp only [Command.transcript, h.args, SearchRequest.transcript, h.files]

/-- It prints what is found in its input. -/
theorem Session.stageOutput_of_searches {stage : Stage} {r : SearchRequest} (h : stage.Searches r)
    (disk : Disk) (data : Bytes) : s.stageOutput disk stage data = r.printed none data := by
  rw [stageOutput, transcript_of_searches hs h]
  exact List.append_nil _

/-- It reports nothing. -/
theorem Session.stageReports_of_searches {stage : Stage} {r : SearchRequest} (h : stage.Searches r)
    (disk : Disk) : s.stageReports disk stage = [] := by
  have hgrep : s.command? stage.name = some .grep := (command?_eq_some_iff hs).2 h.name
  simp [stageReports, hgrep, Command.reports, Command.fault?, Command.fileArguments, h.args, h.files,
    Surroundings.unreadable]

/-- A search of what comes in is a filter. -/
theorem Session.filters_of_searches {stage : Stage} {r : SearchRequest} (h : stage.Searches r)
    (disk : Disk) : s.Filters disk [stage] where
  ne_nil := List.cons_ne_nil stage []
  silent := List.forall_mem_singleton.2 (stageReports_of_searches hs h disk)

/-- What comes out of it is what the search prints. -/
theorem Session.flow_of_searches {stage : Stage} {r : SearchRequest} (h : stage.Searches r)
    (disk : Disk) (data : Bytes) : s.flow disk data [stage] = r.printed none data := by
  rw [flow_cons, flow_nil, stageOutput_of_searches hs h]

/-- Two searches are a filter. -/
theorem Session.filters_pair_of_searches {first second : Stage} {r r' : SearchRequest}
    (h : first.Searches r) (h' : second.Searches r') (disk : Disk) :
    s.Filters disk [first, second] :=
  (filters_of_searches hs h disk).append (filters_of_searches hs h' disk)

/-- What comes out of two searches is what the second one prints of what the first one has printed. -/
theorem Session.flow_pair_of_searches {first second : Stage} {r r' : SearchRequest}
    (h : first.Searches r) (h' : second.Searches r') (disk : Disk) (data : Bytes) :
    s.flow disk data [first, second] = r'.printed none (r.printed none data) := by
  rw [flow_cons, flow_of_searches hs h', stageOutput_of_searches hs h]

/-- **A search makes no difference in front of a stricter one** for the same pattern. -/
theorem Session.interchangeable_of_laxer {lax strict : MatchMode} (hlax : lax.Laxer strict)
    {first second : Stage} {p : Text} (hfirst : first.Searches ⟨⟨lax, 0⟩, p, []⟩)
    (hsecond : second.Searches ⟨⟨strict, 0⟩, p, []⟩) (disk : Disk) :
    s.Interchangeable disk [first, second] [second] := by
  have hboth (line : Bytes) : (matchesLine strict p line && matchesLine lax p line)
      = matchesLine strict p line := by
    rw [Bool.and_eq_left_iff_imp]
    exact matchesLine_of_laxer hlax
  refine (filters_pair_of_searches hs hfirst hsecond disk).interchangeable
    (filters_of_searches hs hsecond disk) fun data => ?_
  rw [flow_pair_of_searches hs hfirst hsecond, flow_of_searches hs hsecond,
    SearchRequest.printed_printed_of_after rfl rfl, SearchRequest.printed_of_after rfl]
  simp only [hboth]

end Searches

/-! ## Searches in a row -/

/-- **The same search twice is the same search once.** For every list of arguments that asks for a
search of the input, whatever the options, the pattern and the bytes are: the search succeeds, and
when it is given what it has printed, it prints just that. So in a pipeline that has it, it can be put
in once more without a difference to what is written or to how the pipeline ends. -/
theorem Session.search_twice {s : Session} (hs : s.commands = Command.all) {search : Stage}
    {r : SearchRequest} (h : search.Searches r) (disk : Disk) :
    (∀ data, ∃ printed,
      s.runStage disk search { data := data } {} = (.holding printed [], .ok .success) ∧
        s.runStage disk search { data := printed } {} = (.holding printed [], .ok .success)) ∧
    s.Interchangeable disk [search, search] [search] := by
  have hsilent := stageReports_of_searches hs h disk
  have hrun (data : Bytes) : s.runStage disk search { data := data } {}
      = (.holding (r.printed none data) [], .ok .success) := by
    have halone := s.runStage_holding disk search data [] []
    rwa [stageOutput_of_searches hs h, hsilent, stageCode_eq_success_iff.2 hsilent] at halone
  refine ⟨fun data => ⟨r.printed none data, hrun data, ?_⟩,
    (filters_pair_of_searches hs h h disk).interchangeable (filters_of_searches hs h disk)
      fun data => ?_⟩
  · rw [hrun, r.printed_printed]
  · rw [flow_pair_of_searches hs h h, flow_of_searches hs h, r.printed_printed]

/-- A search with a line after each match: the second line is one of those, and matches as well. -/
theorem Session.search_twice_of_adjacent_matches :
    let s : Session := { dir := [], locale := .en }
    let disk : Disk := .ofList []
    let search : Stage := ⟨"grep".toList, ["-iA1".toList, "p".toList]⟩
    let data := Text.utf8 "P\np\nx\ny\np".toList
    let once := (s.runStage disk search { data := data } {}).1
    s.commands = Command.all ∧
      search.Searches ⟨{ mode := { ignoreCase := true }, after := 1 }, ['p'], []⟩ ∧
      once = .holding (Text.utf8 "P\np\np\n".toList) [] ∧
      (s.runStage disk search { data := once.out.written } {}).1 = once ∧
      s.Interchangeable disk [search, search] [search] := by
  intro s disk search data once
  have hs : s.commands = Command.all := rfl
  have hsearch : search.Searches ⟨{ mode := { ignoreCase := true }, after := 1 }, ['p'], []⟩ :=
    ⟨rfl, rfl, rfl⟩
  obtain ⟨hsame, hrow⟩ := search_twice hs hsearch disk
  obtain ⟨printed, hfirst, hsecond⟩ := hsame data
  have honce : once = .holding printed [] := congrArg Prod.fst hfirst
  refine ⟨hs, hsearch, by decide +kernel, ?_, hrow⟩
  rw [honce]
  exact congrArg Prod.fst hsecond

/-- **Two searches in a row, when no lines after the matches are asked for.** Whatever patterns two
searches are for and in whatever modes, they can be swapped: both orders print the lines that match
both. In front of a search for whole words the search for the same pattern anywhere makes no
difference, whether the case matters or not; nor does, in front of a search that minds the case, the
same search that does not. All of this holds for any bytes that come in, and in any pipeline. -/
theorem Session.searches_commute_and_absorb {s : Session} (hs : s.commands = Command.all)
    (disk : Disk) :
    (∀ first second m m' p p', first.Searches ⟨⟨m, 0⟩, p, []⟩ → second.Searches ⟨⟨m', 0⟩, p', []⟩ →
      s.Interchangeable disk [first, second] [second, first]) ∧
    (∀ anywhere words ignoreCase p, anywhere.Searches ⟨⟨⟨ignoreCase, false⟩, 0⟩, p, []⟩ →
      words.Searches ⟨⟨⟨ignoreCase, true⟩, 0⟩, p, []⟩ →
      s.Interchangeable disk [anywhere, words] [words]) ∧
    ∀ folding exact wholeWords p, folding.Searches ⟨⟨⟨true, wholeWords⟩, 0⟩, p, []⟩ →
      exact.Searches ⟨⟨⟨false, wholeWords⟩, 0⟩, p, []⟩ →
      s.Interchangeable disk [folding, exact] [exact] := by
  refine ⟨fun first second m m' p p' hfirst hsecond => ?_,
    fun anywhere words ignoreCase p hanywhere hwords =>
      interchangeable_of_laxer hs (MatchMode.laxer_of_wholeWords ignoreCase) hanywhere hwords disk,
    fun folding exact wholeWords p hfolding hexact =>
      interchangeable_of_laxer hs (MatchMode.laxer_of_ignoreCase wholeWords) hfolding hexact disk⟩
  refine (filters_pair_of_searches hs hfirst hsecond disk).interchangeable
    (filters_pair_of_searches hs hsecond hfirst disk) fun data => ?_
  -- each order filters the lines by both matches, once in this order and once in that
  rw [flow_pair_of_searches hs hfirst hsecond, flow_pair_of_searches hs hsecond hfirst,
    SearchRequest.printed_printed_of_after rfl rfl, SearchRequest.printed_printed_of_after rfl rfl]
  simp only [Bool.and_comm]

/-- Searches for a letter of two bytes: it stands there as a capital, next to a stray byte and another
letter, and alone at the end, where the line feed is missing. -/
theorem Session.searches_commute_and_absorb_of_stray_byte :
    let s : Session := { dir := [], locale := .en }
    let disk : Disk := .ofList []
    let search (args : List String) : Stage := ⟨"grep".toList, args.map String.toList⟩
    let plain := search ["ж"]
    let folding := search ["-i", "ж"]
    let words := search ["-w", "ж"]
    let other := search ["-w", "k"]
    let data := Text.utf8 "Ж k\n".toList ++ 0xFF :: Text.utf8 "жk\nk ж".toList
    s.commands = Command.all ∧
      s.Interchangeable disk [folding, other] [other, folding] ∧
      s.Interchangeable disk [plain, words] [words] ∧
      s.Interchangeable disk [folding, plain] [plain] ∧
      s.flow disk data [folding, other] = Text.utf8 "Ж k\nk ж\n".toList ∧
      s.flow disk data [plain, words] = Text.utf8 "k ж\n".toList ∧
      s.flow disk data [folding, plain] = 0xFF :: Text.utf8 "жk\nk ж\n".toList := by
  intro s disk search plain folding words other data
  have hs : s.commands = Command.all := rfl
  obtain ⟨hcommute, hwords, hexact⟩ := searches_commute_and_absorb hs disk
  refine ⟨hs, hcommute _ _ ⟨true, false⟩ ⟨false, true⟩ ['ж'] ['k'] ⟨rfl, rfl, rfl⟩ ⟨rfl, rfl, rfl⟩,
    hwords _ _ false ['ж'] ⟨rfl, rfl, rfl⟩ ⟨rfl, rfl, rfl⟩,
    hexact _ _ false ['ж'] ⟨rfl, rfl, rfl⟩ ⟨rfl, rfl, rfl⟩, ?_, ?_, ?_⟩ <;> decide +kernel

end PipeShell
