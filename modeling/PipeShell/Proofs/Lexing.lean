import PipeShell.Proofs.Cutting
import PipeShell.Proofs.Segmentation

/-! # Reading a line is cutting it

`scan` reads a line character by character and keeps the word that is still open; here it is shown to
cut the segmentation of the line.

* **`Draft.add`** — the word being read after one more segment.
* **`EndsWord rest after`** — the word being read ends before `rest`.
* **`scan_spelled_append`** — segments are read as their lexemes, whatever ends the last word.
* **`lex_spelled`**, **`lex_unclosed`** — the two outcomes of reading a line.
* **`lex_grammar`** — a line is read exactly when it has a segmentation, as the tokens of it. -/

namespace PipeShell

/-! ## One segment more -/

/-- The word being read after one more segment that does not end it. -/
def Draft.add (d : Draft) : Segment → Draft
  | .plain c => d.push c
  | .span q t => { parts := .quoted q t :: d.endRun.parts }

/-- The parts of the word read so far. -/
def Draft.word (d : Draft) : Word := d.endRun.parts.reverse

/-- A run makes at most one part. -/
@[simp] theorem Word.reverse_ofRun (t : Text) : (Word.ofRun t).reverse = Word.ofRun t := by
  cases t <;> rfl

/-- **The word read is that of the segments**: those of the open run and those that follow. -/
theorem Draft.word_foldl_add (ss : List Segment) (d : Draft) :
    (ss.foldl Draft.add d).word
      = d.parts.reverse ++ Word.ofSegments (d.run.reverse.map .plain ++ ss) := by
  -- the open run may go on in `ss`, so its characters are segments and not a part yet
  induction ss generalizing d with
  | nil =>
    have hrun := Word.ofSegments_plain_append d.run.reverse [] (by simp)
    rw [List.foldl_nil, hrun]
    simp [word, endRun]
  | cons s ss ih =>
    rw [List.foldl_cons, ih]
    cases s with
    | plain c => simp [add, push]
    | span q t =>
      have hrun := Word.ofSegments_plain_append d.run.reverse (.span q t :: ss) (by simp)
      rw [hrun]
      simp [add, endRun]

/-- A quotation mark is neither white space nor a pipe operator. -/
theorem Quote.isWhiteSpace_mark (q : Quote) : isWhiteSpace q.mark = false ∧ q.mark ≠ '|' := by
  cases q <;> decide

/-- Inside a span, everything up to the mark of its kind is read into it. -/
theorem scan_inside {q : Quote} {t : Text} (h : q.mark ∉ t) (d : Draft) (rest : Text) :
    scan (some q) d (t ++ q.mark :: rest)
      = scan none { parts := .quoted q (d.run.reverse ++ t) :: d.parts } rest := by
  induction t generalizing d with
  | nil => rw [List.nil_append, scan, if_pos rfl, Draft.endQuoted, List.append_nil]
  | cons c t ih =>
    obtain ⟨hc, ht⟩ := not_or.1 (mt List.mem_cons.2 h)
    rw [List.cons_append, scan, if_neg (Ne.symm hc), ih ht]
    simp [Draft.push]

/-- A span that is not closed is an error. -/
theorem scan_unclosed {q : Quote} {t : Text} (h : q.mark ∉ t) (d : Draft) :
    scan (some q) d t = .error .unclosedQuote := by
  induction t generalizing d with
  | nil => rfl
  | cons c t ih =>
    obtain ⟨hc, ht⟩ := not_or.1 (mt List.mem_cons.2 h)
    rw [scan, if_neg (Ne.symm hc), ih ht]

/-- Outside quotes, a mark opens a span. -/
theorem scan_mark (q : Quote) (d : Draft) (rest : Text) :
    scan none d (q.mark :: rest) = scan (some q) d.endRun rest := by
  rw [scan, if_neg (by simp [q.isWhiteSpace_mark.1]), if_neg q.isWhiteSpace_mark.2,
    Quote.ofMark?_mark]

/-- **A segment that ends no word is added to it.** -/
theorem scan_text {s : Segment} (hs : s.WellFormed) (hblank : s.isBlank = false)
    (hpipe : s.isPipe = false) (d : Draft) (rest : Text) :
    scan none d (s.text ++ rest) = scan none (d.add s) rest := by
  cases s with
  | plain c =>
    have hmark : Quote.ofMark? c = none :=
      Option.eq_none_iff_forall_ne_some.2 fun q hq => hs q (Quote.ofMark?_eq_some_iff.1 hq)
    simp only [Segment.isBlank] at hblank
    simp only [Segment.isPipe, beq_eq_false_iff_ne] at hpipe
    rw [Segment.text, List.singleton_append, scan, if_neg (by simp [hblank]), if_neg hpipe, hmark]
    rfl
  | span q t =>
    rw [Segment.text, List.cons_append, List.append_assoc, List.singleton_append, scan_mark,
      scan_inside hs]
    rfl

/-! ## What ends a word -/

/-- **The word being read ends before `rest`**, and `after` is what `rest` adds to the lexemes. -/
def EndsWord (rest : Text) (after : Except Rejection (List Lexeme)) : Prop :=
  ∀ d : Draft, scan none d rest = after.map (d.lexemes ++ ·)

/-- The end of the line ends a word. -/
theorem endsWord_nil : EndsWord [] (.ok []) := fun d => by
  rw [scan, Except.map, List.append_nil]

/-- White space ends a word. -/
theorem endsWord_blank {c : Char} (h : isWhiteSpace c = true) (rest : Text) :
    EndsWord (c :: rest) (scan none {} rest) := fun d => by
  rw [scan, if_pos h]

/-- A pipe operator ends a word. -/
theorem endsWord_pipe (rest : Text) :
    EndsWord ('|' :: rest) ((scan none {} rest).map (.pipe :: ·)) := fun d => by
  rw [scan, if_neg (by simp [isWhiteSpace_special.1]), if_pos rfl]
  cases scan none {} rest <;> rfl

/-- A span that is never closed spoils the line. -/
theorem endsWord_unclosed {q : Quote} {t : Text} (h : q.mark ∉ t) :
    EndsWord (q.mark :: t) (.error .unclosedQuote) := fun d => by
  rw [scan_mark, scan_unclosed h, Except.map]

/-! ## The lexemes of segments -/

/-- Are the segments all inside one word? -/
def WithinWord (run : List Segment) : Prop := ∀ s ∈ run, s.isBlank = false ∧ s.isPipe = false

theorem withinWord_nil : WithinWord [] := by
  simp [WithinWord]

/-- Segments inside one word make that word. -/
theorem wordsOf_withinWord {run : List Segment} (h : WithinWord run) :
    wordsOf run = if run = [] then [] else [Word.ofSegments run] := by
  rw [wordsOf, List.splitOnP_eq_singleton fun s hs => (h s hs).1]
  cases run <;> simp

/-- The lexeme of the word being read is that word, if it has begun. -/
theorem Draft.lexemes_eq (d : Draft) :
    d.lexemes = if d.word = [] then [] else [.word d.word] := by
  unfold lexemes word
  split
  next hnil => rw [if_pos hnil]
  next hne => rw [if_neg hne]

/-- The segments of the word being read make its lexeme. -/
theorem Draft.lexemes_foldl_add {run : List Segment} (h : WithinWord run) :
    (run.foldl Draft.add {}).lexemes = (wordsOf run).map .word := by
  have hword := Draft.word_foldl_add run {}
  simp only [List.reverse_nil, List.map_nil, List.nil_append] at hword
  rw [lexemes_eq, hword, wordsOf_withinWord h]
  by_cases hrun : run = []
  · simp [hrun]
  · rw [if_neg hrun, if_neg (mt Word.ofSegments_eq_nil_iff.1 hrun)]
    rfl

/-- Segments inside one word have the lexeme of that word. -/
theorem lexemesOf_withinWord {run : List Segment} (h : WithinWord run) :
    lexemesOf run = (wordsOf run).map .word := by
  rw [lexemesOf, List.splitOnP_eq_singleton fun s hs => (h s hs).2]
  simp

/-- A blank ends the words before it. -/
theorem wordsOf_blank (run : List Segment) {c : Char} (hc : isWhiteSpace c = true)
    (g : List Segment) : wordsOf (run ++ .plain c :: g) = wordsOf run ++ wordsOf g := by
  rw [wordsOf, List.splitOnP_append_cons run g hc, List.filter_append, List.map_append]
  rfl

/-- A blank ends the word before it, but not the stage. -/
theorem lexemesOf_blank {run : List Segment} (h : WithinWord run) {c : Char}
    (hc : isWhiteSpace c = true) (ss : List Segment) :
    lexemesOf (run ++ .plain c :: ss) = (wordsOf run).map .word ++ lexemesOf ss := by
  have hpipe : ∀ s ∈ run ++ [.plain c], s.isPipe = false := by
    intro s hs
    rcases List.mem_append.1 hs with hs | hs
    · exact (h s hs).2
    · rw [List.mem_singleton.1 hs, Segment.isPipe, beq_eq_false_iff_ne]
      rintro rfl
      exact absurd hc (by decide)
  -- the pipe operators are cut at first: the word and the blank go to the first stage of the rest
  have hcut := splitOnP_append hpipe ss
  rw [List.append_assoc, List.singleton_append] at hcut
  rw [lexemesOf, lexemesOf, hcut]
  obtain ⟨g, gs, hg⟩ := List.exists_cons_of_ne_nil (List.splitOnP_ne_nil Segment.isPipe ss)
  simp only [hg, List.modifyHead_cons, List.map_cons, List.append_assoc, List.singleton_append,
    wordsOf_blank run hc, List.map_append]
  cases gs <;> simp

/-- A pipe operator ends the stage before it. -/
theorem lexemesOf_pipe {run : List Segment} (h : WithinWord run) (ss : List Segment) :
    lexemesOf (run ++ .plain '|' :: ss) = (wordsOf run).map .word ++ .pipe :: lexemesOf ss := by
  rw [lexemesOf, List.splitOnP_append_cons_of_forall_mem (fun s hs => (h s hs).2) _ rfl,
    List.map_cons, List.intercalate_cons_of_ne_nil (by simp)]
  simp [lexemesOf]

/-- **Segments are read as their lexemes.** The first segments, `run`, are those of the word that is
still open. -/
theorem scan_spelled_append {ss run : List Segment} (hss : ∀ s ∈ ss, s.WellFormed)
    (hrun : WithinWord run) {rest : Text} {after : Except Rejection (List Lexeme)}
    (hrest : EndsWord rest after) :
    scan none (run.foldl Draft.add {}) (spelled ss ++ rest)
      = after.map (lexemesOf (run ++ ss) ++ ·) := by
  -- the word being read is always that of `run`: a segment ends it, so that `run` is empty again, or
  -- is added to it
  induction ss generalizing run with
  | nil => rw [spelled_nil, List.nil_append, hrest, Draft.lexemes_foldl_add hrun, List.append_nil,
      lexemesOf_withinWord hrun]
  | cons s ss ih =>
    obtain ⟨hs, hss⟩ := List.forall_mem_cons.1 hss
    have hnext := ih hss withinWord_nil
    rw [List.foldl_nil, List.nil_append] at hnext
    rw [spelled_cons, List.append_assoc]
    by_cases hblank : s.isBlank
    · cases s with
      | span q t => simp [Segment.isBlank] at hblank
      | plain c =>
        rw [Segment.text, List.singleton_append, endsWord_blank hblank _, hnext,
          Draft.lexemes_foldl_add hrun, lexemesOf_blank hrun hblank]
        cases after <;> simp [Except.map]
    · by_cases hpipe : s.isPipe
      · cases s with
        | span q t => simp [Segment.isPipe] at hpipe
        | plain c =>
          obtain rfl : c = '|' := by simpa [Segment.isPipe] using hpipe
          rw [Segment.text, List.singleton_append, endsWord_pipe _, hnext,
            Draft.lexemes_foldl_add hrun, lexemesOf_pipe hrun]
          cases after <;> simp [Except.map]
      · simp only [Bool.not_eq_true] at hblank hpipe
        have hrun' : WithinWord (run ++ [s]) := by
          intro r hr
          rcases List.mem_append.1 hr with hr | hr
          · exact hrun r hr
          · rw [List.mem_singleton.1 hr]
            exact ⟨hblank, hpipe⟩
        have hadd := ih hss hrun'
        rw [List.foldl_append, List.foldl_cons, List.foldl_nil, List.append_assoc,
          List.singleton_append] at hadd
        rw [scan_text hs hblank hpipe, hadd]

/-- **A segmented line is read as its lexemes**, and then what follows it is read. -/
theorem scan_spelled {ss : List Segment} (h : ∀ s ∈ ss, s.WellFormed) {rest : Text}
    {after : Except Rejection (List Lexeme)} (hrest : EndsWord rest after) :
    scan none {} (spelled ss ++ rest) = after.map (lexemesOf ss ++ ·) :=
  scan_spelled_append h withinWord_nil hrest

/-! ## Telling assignments from words -/

/-- After the first word of the command, every word belongs to it. -/
theorem tokensFrom_false_words (ws : List Word) (rest : List Lexeme) :
    tokensFrom false (ws.map .word ++ rest) = ws.map .word ++ tokensFrom false rest := by
  induction ws with
  | nil => rfl
  | cons w ws ih => simp [tokensFrom, ih]

/-- **The words of a stage become its items**, if the stage ends with them. -/
theorem tokensFrom_words (ws : List Word) (rest : List Lexeme)
    (hrest : tokensFrom false rest = tokensFrom true rest) :
    tokensFrom true (ws.map .word ++ rest) = (itemsOf ws).map .item ++ tokensFrom true rest := by
  induction ws with
  | nil => rfl
  | cons w ws ih =>
    cases hw : w.assignment? with
    -- from here on the flag is cleared, and `rest` sets it again
    | none =>
      rw [List.map_cons, List.cons_append, tokensFrom, hw]
      simp [itemsOf, hw, tokensFrom_false_words, hrest]
    | some a =>
      rw [List.map_cons, List.cons_append, tokensFrom, hw]
      simp only [ih]
      simp [itemsOf, hw, Item.ofWord]

/-- The stages of a line become its items one by one. -/
theorem tokensFrom_intercalate (gs : List (List Word)) :
    tokensFrom true ([Lexeme.pipe].intercalate (gs.map (·.map .word)))
      = [Token.pipe].intercalate (gs.map fun ws => (itemsOf ws).map .item) := by
  induction gs with
  | nil => rfl
  | cons ws gs ih =>
    cases gs with
    | nil =>
      have hlast := tokensFrom_words ws [] rfl
      simpa using hlast
    | cons vs gs =>
      simp only [List.map_cons, List.intercalate_cons_cons, List.append_assoc,
        List.singleton_append] at ih ⊢
      rw [tokensFrom_words ws _ rfl, tokensFrom_pipe, ih]

/-- An identifier consists of characters of identifiers. -/
theorem isNameChar_of_mem {name : Text} (h : isName name = true) {c : Char} (hc : c ∈ name) :
    isNameChar c = true := by
  cases name with
  | nil => simp at hc
  | cons d name =>
    simp only [isName, Bool.and_eq_true, List.all_eq_true] at h
    rcases List.mem_cons.1 hc with rfl | hc
    · exact isNameChar_of_start h.1
    · exact h.2 c hc

/-- A text that has a character is cut at the first place where it stands. -/
theorem takeWhile_append_of_dropWhile {t tail : Text} {c d : Char}
    (h : t.dropWhile (· != d) = c :: tail) : t.takeWhile (· != d) ++ d :: tail = t := by
  have hhead := List.head?_dropWhile_not (· != d) t
  rw [h] at hhead
  obtain rfl : c = d := by simpa using hhead
  rw [← h, List.takeWhile_append_dropWhile]

/-- An identifier and the `=` after it are cut there: no identifier has a `=`. -/
theorem takeWhile_dropWhile_name {name : Text} (h : isName name = true) (t : Text) :
    (name ++ '=' :: t).takeWhile (· != '=') = name ∧
      (name ++ '=' :: t).dropWhile (· != '=') = '=' :: t := by
  have hnot : ∀ c ∈ name, (c != '=') = true := by
    intro c hc
    rw [bne_iff_ne]
    rintro rfl
    exact absurd (isNameChar_of_mem h hc) (by decide)
  constructor
  · rw [List.takeWhile_append_of_pos hnot, List.takeWhile_cons_of_neg (by simp), List.append_nil]
  · rw [List.dropWhile_append_of_pos hnot, List.dropWhile_cons_of_neg (by simp)]

/-- **What reads as an assignment**: a word that begins with an identifier and `=` outside quotes,
and goes on after the `=`. -/
theorem Word.assignment?_eq_some_iff {w value : Word} {name : Text} :
    w.assignment? = some (name, value) ↔
      isName name = true ∧ ∃ (text : Text) (rest : Word), w = .bare (name ++ '=' :: text) :: rest ∧
        (text ≠ [] ∨ rest ≠ []) ∧ value = ofRun text ++ rest := by
  constructor
  · intro h
    refine ⟨isName_of_assignment? h, ?_⟩
    unfold assignment? at h
    split at h
    next text rest =>
      split at h
      · simp at h
      next c tail htail =>
        split at h
        next hn =>
          simp only [Option.some.injEq, Prod.mk.injEq] at h
          obtain ⟨rfl, rfl⟩ := h
          refine ⟨tail, rest, by rw [takeWhile_append_of_dropWhile htail], ?_, rfl⟩
          -- the guard refuses a bare `name=`
          simp only [Bool.and_eq_true, Bool.not_eq_true', Bool.and_eq_false_iff] at hn
          simpa using hn.2
        next => simp at h
    next => simp at h
  · rintro ⟨hname, text, rest, rfl, hne, rfl⟩
    obtain ⟨htake, hdrop⟩ := takeWhile_dropWhile_name hname text
    rw [assignment?, hdrop]
    simp only [htake, hname, Bool.true_and]
    rw [if_pos]
    rcases hne with hne | hne <;> simp [hne]

/-! ## The tokens of a line -/

/-- **A segmented line is read as the tokens of its segments.** -/
theorem lex_spelled {ss : List Segment} (h : ∀ s ∈ ss, s.WellFormed) :
    lex (spelled ss) = .ok (tokensOf ss) := by
  have hscan := scan_spelled h endsWord_nil
  rw [List.append_nil] at hscan
  rw [lex, hscan, Except.map, Except.map, List.append_nil, lexemesOf, tokensOf]
  have hstages := tokensFrom_intercalate ((ss.splitOnP Segment.isPipe).map wordsOf)
  rw [List.map_map, List.map_map] at hstages
  exact congrArg Except.ok hstages

/-- A line that breaks off inside a span is rejected. -/
theorem lex_unclosed {ss : List Segment} (h : ∀ s ∈ ss, s.WellFormed) {q : Quote} {t : Text}
    (ht : q.mark ∉ t) : lex (spelled ss ++ q.mark :: t) = .error .unclosedQuote := by
  rw [lex, scan_spelled h (endsWord_unclosed ht)]
  rfl

/-- White space at the end of a line makes no difference. -/
theorem lex_concat_blank {c : Char} (hc : isWhiteSpace c = true) (line : Text) :
    lex (line ++ [c]) = lex line := by
  obtain ⟨ss, hss, rfl | ⟨q, t, ht, rfl⟩⟩ := exists_segments line
  · -- outside quotes it ends the last word, as the end of the line does
    have hblank := scan_spelled hss (endsWord_blank hc [])
    have hend := scan_spelled hss endsWord_nil
    rw [List.append_nil] at hend
    rw [lex, lex, hblank, hend]
    rfl
  · -- inside quotes it does not close them
    have hq : q.mark ∉ t ++ [c] := by
      rw [List.mem_append, List.mem_singleton, not_or]
      refine ⟨ht, ?_⟩
      rintro rfl
      rw [q.isWhiteSpace_mark.1] at hc
      cases hc
    have hunclosed := lex_unclosed hss hq
    rw [← List.cons_append, ← List.append_assoc] at hunclosed
    rw [hunclosed, lex_unclosed hss ht]

/-- A line that is read has a segmentation, and is read as the tokens of its segments. -/
theorem exists_segmentation_of_lex {line : Text} {tokens : List Token} (h : lex line = .ok tokens) :
    ∃ s : Segmentation line, tokensOf s.segments = tokens := by
  obtain ⟨ss, hss, hline | ⟨q, t, ht, rfl⟩⟩ := exists_segments line
  · subst hline
    rw [lex_spelled hss] at h
    exact ⟨⟨ss, hss, rfl⟩, Except.ok.inj h⟩
  · rw [lex_unclosed hss ht] at h
    cases h

/-- **Reading accepts exactly the lines that can be cut into segments, and yields what the cuts say.**
A line is rejected exactly when it has no segmentation; it has at most one; and its tokens are those of
its segments. What reads as an assignment there is spelled out last. -/
theorem lex_grammar (line : Text) :
    (lex line = .error .unclosedQuote ↔ ¬ Nonempty (Segmentation line)) ∧
      (∀ s t : Segmentation line, s = t) ∧
      (∀ s : Segmentation line, lex line = .ok (tokensOf s.segments)) ∧
      ∀ (w value : Word) (name : Text), w.assignment? = some (name, value) ↔
        isName name = true ∧ ∃ (text : Text) (rest : Word),
          w = .bare (name ++ '=' :: text) :: rest ∧ (text ≠ [] ∨ rest ≠ []) ∧
            value = Word.ofRun text ++ rest := by
  have hread : ∀ s : Segmentation line, lex line = .ok (tokensOf s.segments) := by
    rintro ⟨ss, hss, rfl⟩
    exact lex_spelled hss
  refine ⟨⟨?_, fun h => ?_⟩, Subsingleton.elim, hread,
    fun _ _ _ => Word.assignment?_eq_some_iff⟩
  · rintro h ⟨s⟩
    rw [hread s] at h
    cases h
  · obtain ⟨ss, hss, hline | ⟨q, t, ht, rfl⟩⟩ := exists_segments line
    · exact absurd ⟨ss, hss, hline⟩ h
    · exact lex_unclosed hss ht

end PipeShell
