import PipeShell.Token
import PipeShell.Unicode.WhiteSpace

/-! # Reading a line

* **`scan`** — the lexemes of a line, read from left to right: white space and `|` outside quotes end
  a word, a quotation mark opens or closes a quoted span of the word, every other character extends
  it.
* **`lex`** — the tokens of a line, with assignments marked.

The only lines without tokens of their own are those with a quoted span that is not closed. -/

namespace PipeShell

/-- Why a line is rejected before anything of it is run. -/
inductive Rejection where
  /-- A quoted span is not closed. -/
  | unclosedQuote
  /-- A stage of a pipeline has no command. -/
  | missingCommand
  deriving DecidableEq, Repr

/-- The reason in words. -/
def Rejection.message : Rejection → Text
  | .unclosedQuote => "unmatched quote".toList
  | .missingCommand => "empty pipeline stage".toList

/-! ## The word being read -/

/-- The word being read: its finished parts and the run of characters that is still open, both with
the newest first. -/
structure Draft where
  parts : List Part := []
  run : Text := []
  deriving DecidableEq, Repr

/-- Extend the open run. -/
def Draft.push (d : Draft) (c : Char) : Draft := { d with run := c :: d.run }

/-- End a bare run, so that a quoted span can begin. -/
def Draft.endRun (d : Draft) : Draft := { parts := Word.ofRun d.run.reverse ++ d.parts }

/-- End a quoted span. -/
def Draft.endQuoted (d : Draft) (q : Quote) : Draft := { parts := .quoted q d.run.reverse :: d.parts }

/-- The word read so far; nothing if no part of it has been read. -/
def Draft.lexemes (d : Draft) : List Lexeme :=
  match d.endRun.parts.reverse with
  | [] => []
  | w => [.word w]

@[simp] theorem Draft.lexemes_empty : Draft.lexemes {} = [] := rfl

/-! ## The lexemes of a line -/

/-- **The lexemes of a line.** The first argument is the kind of the quoted span that is open, if one
is; the second the word being read. -/
def scan : Option Quote → Draft → Text → Except Rejection (List Lexeme)
  | none, d, [] => .ok d.lexemes
  | some _, _, [] => .error .unclosedQuote
  | some q, d, c :: cs =>
    if c = q.mark then scan none (d.endQuoted q) cs else scan (some q) (d.push c) cs
  | none, d, c :: cs =>
    if isWhiteSpace c then (scan none {} cs).map (d.lexemes ++ ·)
    else if c = '|' then (scan none {} cs).map (d.lexemes ++ .pipe :: ·)
    else match Quote.ofMark? c with
      | some q => scan (some q) d.endRun cs
      | none => scan none (d.push c) cs

/-- **The tokens of a line.** -/
def lex (line : Text) : Except Rejection (List Token) := (scan none {} line).map (tokensFrom true)

/-- A blank line has no tokens. -/
@[simp] theorem lex_nil : lex [] = .ok [] := rfl

/-! ## Readings of lines -/

example : lex "x=1 echo a'b c'\"\" | wc".toList = .ok [
    .assign "x".toList [.bare "1".toList], .word [.bare "echo".toList],
    .word [.bare "a".toList, .quoted .single "b c".toList, .quoted .double []], .pipe,
    .word [.bare "wc".toList]] := rfl

example : lex "echo 'a".toList = .error .unclosedQuote := rfl

example : lex "echo x=1|x=1".toList = .ok [
    .word [.bare "echo".toList], .word [.bare "x=1".toList], .pipe,
    .assign "x".toList [.bare "1".toList]] := rfl

end PipeShell
