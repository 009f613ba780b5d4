import PipeShell.Text
import PipeShell.Unicode.CaseFolding
import PipeShell.Unicode.WordCharacter

/-! # Does a line contain a text?

A pattern is literal text. A line is any byte string without a line feed; only its validly encoded
characters can match a character of the pattern, or stand beside a whole word.

* **`MatchMode`** — whether case matters, and whether only whole words count.
* **`afterPattern?`** — what follows the pattern where it occurs at the start.
* **`containsPattern`** — whether it occurs anywhere, at every place to be tried.
* **`matchesLine`** — the same for a line of bytes. -/

namespace PipeShell

/-- How a pattern is compared with a line. -/
structure MatchMode where
  /-- Characters are equal if their simple case foldings are. -/
  ignoreCase : Bool := false
  /-- An occurrence counts only between characters that are no word characters. -/
  wholeWords : Bool := false
  deriving DecidableEq, Repr

/-- Are two characters equal for the purpose of a search? -/
def MatchMode.sameChar (m : MatchMode) (a b : Char) : Bool :=
  if m.ignoreCase then foldCase a == foldCase b else a == b

/-- Can an occurrence begin after this piece, or end before it? -/
def MatchMode.separates (m : MatchMode) : Piece → Bool
  | .char c => !m.wholeWords || !isWordCharacter c
  | .stray _ => !m.wholeWords

/-- Every character equals itself. -/
@[simp] theorem MatchMode.sameChar_self (m : MatchMode) (c : Char) : m.sameChar c c = true := by
  unfold sameChar
  split <;> simp

/-- **What follows the pattern**, if the pieces start with it. -/
def afterPattern? (m : MatchMode) : Text → List Piece → Option (List Piece)
  | [], ps => some ps
  | c :: cs, .char d :: ps => if m.sameChar c d then afterPattern? m cs ps else none
  | _ :: _, _ => none

/-- Does the pattern occur at the start, with something that separates after it? -/
def occursHere (m : MatchMode) (pattern : Text) (ps : List Piece) : Bool :=
  match afterPattern? m pattern ps with
  | none => false
  | some [] => true
  | some (p :: _) => m.separates p

/-- **Does the pattern occur anywhere?** The flag says whether an occurrence can begin right here. -/
def containsPattern (m : MatchMode) (pattern : Text) : Bool → List Piece → Bool
  | free, [] => free && occursHere m pattern []
  | free, p :: ps =>
    (free && occursHere m pattern (p :: ps)) || containsPattern m pattern (m.separates p) ps

/-- **Does a line match?** -/
def matchesLine (m : MatchMode) (pattern : Text) (line : Bytes) : Bool :=
  containsPattern m pattern true (Bytes.pieces line)

/-- The empty pattern is found in every line, as long as whole words are not asked for. -/
theorem matchesLine_nil (m : MatchMode) (h : m.wholeWords = false) (line : Bytes) :
    matchesLine m [] line = true := by
  unfold matchesLine
  cases Bytes.pieces line with
  | nil => rfl
  | cons p ps => cases p <;> simp [containsPattern, occursHere, afterPattern?, MatchMode.separates, h]

example :
    let words : MatchMode := { wholeWords := true }
    matchesLine words "a".toList (Text.utf8 "ba a".toList) = true ∧
      matchesLine words "a".toList (Text.utf8 "ba ab".toList) = false ∧
      matchesLine words "a".toList (0xFF :: Text.utf8 "a".toList) = false := by
  decide +kernel

example : matchesLine { ignoreCase := true } "ЖK".toList (Text.utf8 "жk".toList) = true := by
  decide +kernel

end PipeShell
