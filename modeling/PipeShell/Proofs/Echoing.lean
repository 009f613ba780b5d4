import PipeShell.Proofs.Binding
import PipeShell.Proofs.Encoding

/-! # Plain text is printed with its white space normalized

Text without quotes, references and pipe operators is passed on word by word: `echo` prints the words
with one space between them, and printing that again changes nothing.

* **`Text.words`** — the longest runs of a text that hold no white space.
* **`lex_echo_plain`** — a line of `echo` and plain text is read as its words, none of them as an
  assignment.
* **`Text.words_joined`** — words that are joined by spaces are the words of the joined text.
* **`Session.submit_echo_plain`** — what the line prints, and what the printed text prints. -/

namespace PipeShell

/-! ## The words of a text -/

/-- **The words of a text**: the longest runs of characters that are no white space. The text is cut at
every white-space character, and what stands between the cuts is a word unless it is empty. -/
def Text.words (t : Text) : List Text := (t.splitOnP isWhiteSpace).filter (!·.isEmpty)

/-- White space separates the words before it from those after it. -/
theorem Text.words_append_cons {c : Char} (hc : isWhiteSpace c = true) (s t : Text) :
    words (s ++ c :: t) = s.words ++ t.words := by
  rw [words, List.splitOnP_append_cons s t hc, List.filter_append]
  rfl

/-- A text without white space is one word. -/
theorem Text.words_of_forall {t : Text} (hne : t ≠ []) (h : ∀ c ∈ t, isWhiteSpace c = false) :
    t.words = [t] := by
  rw [words, List.splitOnP_eq_singleton h]
  simp [hne]

/-- A word is not empty, and its characters are characters of the text but no white space. -/
theorem Text.of_mem_words {t w : Text} (h : w ∈ t.words) :
    w ≠ [] ∧ ∀ c ∈ w, c ∈ t ∧ isWhiteSpace c = false := by
  obtain ⟨hw, hne⟩ := List.mem_filter.1 h
  exact ⟨by simpa using hne, fun c hc => of_mem_splitOnP hw hc⟩

/-- **Words that are joined by spaces are the words of the joined text.** -/
theorem Text.words_joined {ws : List Text}
    (h : ∀ w ∈ ws, w ≠ [] ∧ ∀ c ∈ w, isWhiteSpace c = false) :
    words ([' '].intercalate ws) = ws := by
  have hspace : isWhiteSpace ' ' = true := by decide
  induction ws with
  | nil => rfl
  | cons w ws ih =>
    obtain ⟨⟨hne, hw⟩, hws⟩ := List.forall_mem_cons.1 h
    cases ws with
    | nil => rw [List.intercalate_singleton, words_of_forall hne hw]
    | cons v ws =>
      rw [List.intercalate_cons_cons, List.append_assoc, List.singleton_append,
        words_append_cons hspace, words_of_forall hne hw, ih hws, List.singleton_append]

/-! ## Plain text -/

/-- A character that neither quotes, nor refers to a variable, nor ends a stage. -/
def isPlain (c : Char) : Bool := c != '\'' && c != '"' && c != '$' && c != '|'

/-- **Is the text plain?** -/
def Text.IsPlain (t : Text) : Prop := ∀ c ∈ t, isPlain c = true

/-- A character that is not plain stands in no plain text. -/
theorem Text.IsPlain.not_mem {t : Text} (h : t.IsPlain) {c : Char} (hc : isPlain c = false) :
    c ∉ t := by
  intro hmem
  rw [h c hmem] at hc
  cases hc

/-- Plain characters are cut where the text is. -/
theorem splitOnP_map_plain (t : Text) :
    (t.map Segment.plain).splitOnP Segment.isBlank
      = (t.splitOnP isWhiteSpace).map (·.map Segment.plain) := by
  induction t with
  | nil => rfl
  | cons c t ih =>
    rw [List.map_cons, List.splitOnP_cons_eq_if_modifyHead, List.splitOnP_cons_eq_if_modifyHead, ih,
      Segment.isBlank]
    split
    · rfl
    · cases t.splitOnP isWhiteSpace <;> rfl

/-- **Plain characters make the words of the text**, each a single bare run. -/
theorem wordsOf_map_plain (t : Text) :
    wordsOf (t.map .plain) = t.words.map fun w => [.bare w] := by
  have hword : ∀ w ∈ t.words, Word.ofSegments (w.map .plain) = [.bare w] := by
    intro w hw
    obtain ⟨c, w, rfl⟩ := List.exists_cons_of_ne_nil (Text.of_mem_words hw).1
    have hrun := Word.ofSegments_plain_append (c :: w) [] (by simp)
    rwa [List.append_nil, Word.ofSegments_nil, List.append_nil] at hrun
  rw [wordsOf, splitOnP_map_plain, List.filter_map, List.map_map]
  have hempty : ((fun run : List Segment => !run.isEmpty) ∘ fun w : Text => w.map Segment.plain)
      = fun w => !w.isEmpty := by
    funext w
    simp
  rw [hempty]
  exact List.map_congr_left hword

/-- A line of `echo` and plain text is plain. -/
theorem Text.IsPlain.echo {t : Text} (h : t.IsPlain) : IsPlain ("echo ".toList ++ t) :=
  List.forall_mem_append.2 ⟨List.all_eq_true.1 (by decide), h⟩

/-- **A plain line is read as its words**, and nothing stands between them. -/
theorem lex_plain {t : Text} (h : t.IsPlain) :
    lex t = .ok ((itemsOf (t.words.map fun w => [.bare w])).map .item) := by
  have hsegments : ∀ s ∈ t.map Segment.plain, s.WellFormed := by
    intro s hs
    obtain ⟨c, hc, rfl⟩ := List.mem_map.1 hs
    rintro q rfl
    have hmark : isPlain q.mark = false := by cases q <;> rfl
    exact h.not_mem hmark hc
  have hpipe : ∀ s ∈ t.map Segment.plain, s.isPipe = false := by
    intro s hs
    obtain ⟨c, hc, rfl⟩ := List.mem_map.1 hs
    apply beq_eq_false_iff_ne.2
    rintro rfl
    exact h.not_mem rfl hc
  have hlex := lex_spelled hsegments
  rw [spelled_map_plain, tokensOf, List.splitOnP_eq_singleton hpipe, List.map_singleton,
    List.intercalate_singleton, wordsOf_map_plain] at hlex
  exact hlex

/-- **A line of `echo` and plain text** is read as words: what reads as an assignment is none, since it
stands behind the command. -/
theorem lex_echo_plain {t : Text} (h : t.IsPlain) :
    lex ("echo ".toList ++ t) = .ok ((echoWord :: t.words.map fun w => [.bare w]).map .word) := by
  have hwords : Text.words ("echo ".toList ++ t) = Command.echo.name :: t.words := by
    have hspace : isWhiteSpace ' ' = true := by decide
    have hname : Text.words Command.echo.name = [Command.echo.name] := by decide
    have hecho := Text.words_append_cons hspace Command.echo.name t
    rwa [hname] at hecho
  have hnone : echoWord.assignment? = none := by decide +kernel
  rw [lex_plain h.echo, hwords, List.map_cons]
  show Except.ok ((itemsOf (echoWord :: _)).map Token.item) = _
  rw [itemsOf_cons_of_eq_none hnone, List.map_cons, List.map_cons, List.map_map]
  rfl

/-- The words of a text without references stand for themselves. -/
theorem map_value_words {t : Text} (h : '$' ∉ t) (σ : Store) :
    (t.words.map fun w => [.bare w]).map (Word.value σ) = t.words := by
  rw [List.map_map]
  refine (List.map_congr_left fun w hw => ?_).trans (List.map_id _)
  have hplain : '$' ∉ w := fun hd => h ((Text.of_mem_words hw).2 '$' hd).1
  rw [Function.comp_apply, Word.value_cons, Word.value_nil, List.append_nil, Part.value,
    expand_of_not_mem σ hplain, id]

/-! ## What is printed -/

/-- Words joined by spaces are plain if the text that they are taken from is. -/
theorem Text.IsPlain.joined {t : Text} (h : t.IsPlain) : IsPlain ([' '].intercalate t.words) := by
  intro c hc
  rcases of_mem_intercalate hc with hspace | ⟨w, hw, hc⟩
  · rw [List.mem_singleton.1 hspace]
    rfl
  · exact h c ((of_mem_words hw).2 c hc).1

/-- A line of `echo` and plain text prints its words, in any session that has `echo`. -/
theorem Session.submit_echo_words {s : Session} (hs : s.commands = Command.all) {t : Text}
    (h : t.IsPlain) (disk : Disk) (o e : Bytes) :
    s.submit disk (.holding o e) ("echo ".toList ++ t)
      = ⟨s, .holding (o ++ (Text.utf8 ([' '].intercalate t.words) ++ [lineFeed])) e,
          .ok .success⟩ := by
  rw [submit_of_lex_echo hs (lex_echo_plain h), map_value_words (h.not_mem rfl)]

/-- **`echo` normalizes the white space of plain text.** In any session with all commands, a line of
`echo` and a text without quotes, references and pipe operators prints the words of the text, in order
and with one space between them, and a line feed; it reports nothing and leaves the session as it is. A
text that is printed in this way is printed again as it is. -/
theorem Session.submit_echo_plain {s : Session} (hs : s.commands = Command.all) {text : Text}
    (h : text.IsPlain) (disk : Disk) :
    let printed := Text.utf8 ([' '].intercalate text.words) ++ [lineFeed]
    (∀ o e : Bytes, s.submit disk (.holding o e) ("echo ".toList ++ text)
      = ⟨s, .holding (o ++ printed) e, .ok .success⟩) ∧
    ∀ t : Text, t.utf8 ++ [lineFeed] = printed →
      ∀ o e : Bytes, s.submit disk (.holding o e) ("echo ".toList ++ t)
        = ⟨s, .holding (o ++ printed) e, .ok .success⟩ := by
  intro printed
  refine ⟨submit_echo_words hs h disk, ?_⟩
  intro t ht o e
  obtain rfl : t = [' '].intercalate text.words := by
    have hbytes := congrArg Bytes.lossyText (List.append_cancel_right ht)
    rwa [Bytes.lossyText_utf8, Bytes.lossyText_utf8] at hbytes
  have hwords : Text.words ([' '].intercalate text.words) = text.words :=
    Text.words_joined fun w hw =>
      ⟨(Text.of_mem_words hw).1, fun c hc => ((Text.of_mem_words hw).2 c hc).2⟩
  have hagain := submit_echo_words hs h.joined disk o e
  rwa [hwords] at hagain

/-- Both words read as assignments, to a variable that is bound; an ideographic space stands between
them, and a tab and a line feed around them. -/
theorem Session.submit_echo_plain_of_assignments :
    let s : Session := { store := .ofList [(['x'], ['2'])], dir := [], locale := .en }
    let disk : Disk := fun _ => .error .notFound
    let text : Text := "\tx=1\u3000x=é\n".toList
    let printed := Text.utf8 "x=1 x=é\n".toList
    s.commands = Command.all ∧ text.IsPlain ∧
      s.submit disk (.holding [] []) ("echo ".toList ++ text)
        = ⟨s, .holding printed [], .ok .success⟩ ∧
      s.submit disk (.holding printed []) "echo x=1 x=é".toList
        = ⟨s, .holding (printed ++ printed) [], .ok .success⟩ := by
  intro s disk text printed
  have hcommands : s.commands = Command.all := rfl
  have hplain : text.IsPlain := List.all_eq_true.1 (by decide)
  have hprinted : Text.utf8 ([' '].intercalate text.words) ++ [lineFeed] = printed := by
    decide +kernel
  obtain ⟨hfirst, hagain⟩ := submit_echo_plain hcommands hplain disk
  rw [hprinted] at hfirst hagain
  exact ⟨hcommands, hplain, hfirst [] [], hagain "x=1 x=é".toList (by decide +kernel) printed []⟩

end PipeShell
