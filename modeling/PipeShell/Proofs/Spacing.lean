import PipeShell.Proofs.Assigning

/-! # White space outside quotes

White space outside quotes separates words and does nothing else: it does not matter how much of it
there is, or which, and none is needed where a pipe operator or the end of the line separates already.

* **`Text.IsBlank`** — some white space.
* **`EndsWord.after_blanks`** — white space in front of what ends a word adds nothing to it.
* **`lex_append_congr`** — a line goes on in the same way after whatever ends its last word.
* **`lex_spaced`** — where white space can be exchanged, put in and left out. -/

namespace PipeShell

/-- **Some white space**: one character or more, and no other. -/
def Text.IsBlank (w : Text) : Prop := w ≠ [] ∧ ∀ c ∈ w, isWhiteSpace c = true

/-! ## What ends a word -/

/-- Where no word is being read, only what follows is read. -/
theorem EndsWord.scan_eq {rest : Text} {after : Except Rejection (List Lexeme)}
    (h : EndsWord rest after) : scan none {} rest = after := by
  rw [h {}]
  cases after <;> rfl

/-- **White space in front of what ends a word anyway** adds nothing to it. -/
theorem EndsWord.after_blanks {rest : Text} {after : Except Rejection (List Lexeme)}
    (h : EndsWord rest after) {w : Text} (hw : w.IsBlank) : EndsWord (w ++ rest) after := by
  have hblanks := endsWord_blanks hw.1 hw.2 rest
  rwa [h.scan_eq] at hblanks

/-- White space after a pipe operator is skipped. -/
theorem endsWord_pipe_blanks {w : Text} (hw : w.IsBlank) (rest : Text) :
    EndsWord ('|' :: (w ++ rest)) ((scan none {} rest).map (.pipe :: ·)) := by
  have hpipe := endsWord_pipe (w ++ rest)
  rwa [scan_blanks_append hw.2] at hpipe

/-! ## Lines -/

/-- **A line goes on in the same way** after whatever ends its last word. -/
theorem lex_append_congr {a : Text} {ts : List Token} (ha : lex a = .ok ts) {rest rest' : Text}
    {after : Except Rejection (List Lexeme)} (h : EndsWord rest after) (h' : EndsWord rest' after) :
    lex (a ++ rest) = lex (a ++ rest') := by
  obtain ⟨ls, hls, -⟩ := exists_lexemes_of_lex ha
  rw [lex, lex, scan_append hls h, scan_append hls h']

/-- White space in front of a line makes no difference. -/
theorem lex_leading_blanks {w : Text} (hw : w.IsBlank) (line : Text) :
    lex (w ++ line) = lex line := by
  rw [lex, lex, scan_blanks_append hw.2]

/-- White space at the end of a line makes no difference, nor does it close a quoted span. -/
theorem lex_trailing_blanks {w : Text} (hw : ∀ c ∈ w, isWhiteSpace c = true) (line : Text) :
    lex (line ++ w) = lex line := by
  induction w generalizing line with
  | nil => rw [List.append_nil]
  | cons c w ih =>
    obtain ⟨hc, hw⟩ := List.forall_mem_cons.1 hw
    rw [List.append_cons, ih hw, lex_concat_blank hc]

/-- **White space outside quotes is only a separator.** At either end of a line it makes no difference.
Behind a line that is read without error, and in front of any other, it can be exchanged for other white
space, and on both sides of a pipe operator it can be put in and left out; the results are the same also
where they are errors. The pipe operator itself stands between the tokens of the two lines. -/
theorem lex_spaced {w w' : Text} (hw : w.IsBlank) (hw' : w'.IsBlank) :
    (∀ line : Text, lex (w ++ line) = lex line ∧ lex (line ++ w) = lex line) ∧
      ∀ (a : Text) (ts : List Token), lex a = .ok ts → ∀ b : Text,
        lex (a ++ w ++ b) = lex (a ++ w' ++ b) ∧
        lex (a ++ ['|'] ++ b) = lex (a ++ w ++ ['|'] ++ w' ++ b) ∧
        ∀ us : List Token, lex b = .ok us → lex (a ++ ['|'] ++ b) = .ok (ts ++ [.pipe] ++ us) := by
  refine ⟨fun line => ⟨lex_leading_blanks hw line, lex_trailing_blanks hw.2 line⟩, ?_⟩
  intro a ts ha b
  simp only [List.append_assoc, List.singleton_append]
  refine ⟨?_, ?_, ?_⟩
  · exact lex_append_congr ha (endsWord_blanks hw.1 hw.2 b) (endsWord_blanks hw'.1 hw'.2 b)
  · exact lex_append_congr ha (endsWord_pipe b) ((endsWord_pipe_blanks hw' b).after_blanks hw)
  · intro us hb
    rw [lex_append_pipe ha, hb]
    rfl

/-- A tab and a line feed on one side, an ideographic space on the other; the second line begins with an
assignment, or does not close a quoted span. -/
theorem lex_spaced_of_ideographic_space :
    let w : Text := "\t\n".toList
    let w' : Text := "\u3000".toList
    let a : Text := "x=1 echo ' '".toList
    w.IsBlank ∧ w'.IsBlank ∧
      lex a = .ok [.assign ['x'] [.bare ['1']], .word [.bare "echo".toList],
        .word [.quoted .single [' ']]] ∧
      lex (a ++ w ++ ['|'] ++ w' ++ "y=2 wc".toList)
        = .ok [.assign ['x'] [.bare ['1']], .word [.bare "echo".toList],
            .word [.quoted .single [' ']], .pipe, .assign ['y'] [.bare ['2']],
            .word [.bare "wc".toList]] ∧
      lex (a ++ w ++ "y=2 wc".toList) = lex (a ++ w' ++ "y=2 wc".toList) ∧
      lex (a ++ ['|'] ++ "\"wc".toList) = lex (a ++ w ++ ['|'] ++ w' ++ "\"wc".toList) ∧
      lex ("echo \"".toList ++ w) = .error .unclosedQuote := by
  intro w w' a
  have hw : w.IsBlank := ⟨by simp [w], List.all_eq_true.1 (by decide)⟩
  have hw' : w'.IsBlank := ⟨by simp [w'], List.all_eq_true.1 (by decide)⟩
  have ha : lex a = .ok [.assign ['x'] [.bare ['1']], .word [.bare "echo".toList],
      .word [.quoted .single [' ']]] := rfl
  have hb : lex "y=2 wc".toList = .ok [.assign ['y'] [.bare ['2']], .word [.bare "wc".toList]] := rfl
  obtain ⟨hends, hmiddle⟩ := lex_spaced hw hw'
  obtain ⟨hsame, hpipe, hjoined⟩ := hmiddle a _ ha "y=2 wc".toList
  exact ⟨hw, hw', ha, hpipe.symm.trans (hjoined _ hb), hsame, (hmiddle a _ ha "\"wc".toList).2.1,
    (hends "echo \"".toList).2⟩

end PipeShell
