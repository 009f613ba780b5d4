import PipeShell.Text

/-! # Words and their quoting

A word of a command line is a row of adjacent parts, each a bare run of characters or the inside of a
quoted span. How a part was quoted decides what a `$name` in it means.

* **`Quote`**, **`Part`**, **`Word`** — the syntax of words.
* **`isName`** — the names that can be assigned to and referred to.
* **`Word.assignment?`** — the reading of a word as `name=value`. -/

namespace PipeShell

/-- The two kinds of quotation mark. -/
inductive Quote where
  | single
  | double
  deriving DecidableEq, Repr

/-- The character that opens and closes a quoted span. -/
def Quote.mark : Quote → Char
  | .single => '\''
  | .double => '"'

/-- The kind of quoted span that a character opens, if it opens one. -/
def Quote.ofMark? (c : Char) : Option Quote :=
  if c = '\'' then some .single else if c = '"' then some .double else none

/-- A character opens a span of a kind exactly when it is the mark of that kind. -/
theorem Quote.ofMark?_eq_some_iff {c : Char} {q : Quote} : ofMark? c = some q ↔ c = q.mark := by
  unfold ofMark?
  split
  · cases q <;> simp_all [mark]
  · split <;> cases q <;> simp_all [mark]

/-- Every mark opens a span of its own kind. -/
@[simp] theorem Quote.ofMark?_mark (q : Quote) : ofMark? q.mark = some q :=
  ofMark?_eq_some_iff.2 rfl

/-- A part of a word. -/
inductive Part where
  /-- Characters outside quotes. -/
  | bare (text : Text)
  /-- The characters between two quotation marks, without the marks. -/
  | quoted (q : Quote) (text : Text)
  deriving DecidableEq, Repr

/-- A word: its parts, with nothing between them. -/
abbrev Word := List Part

/-- A run of characters outside quotes as a word. An empty run contributes no part, unlike an empty
quoted span. -/
def Word.ofRun : Text → Word
  | [] => []
  | t => [.bare t]

@[simp] theorem Word.ofRun_nil : Word.ofRun [] = [] := rfl

@[simp] theorem Word.ofRun_cons (c : Char) (t : Text) : Word.ofRun (c :: t) = [.bare (c :: t)] := rfl

/-! ## Identifiers -/

/-- A character that can begin an identifier: an ASCII letter or an underscore. -/
def isNameStart (c : Char) : Bool := c.isAlpha || c == '_'

/-- A character that can continue an identifier: an ASCII letter, an ASCII digit or an underscore. -/
def isNameChar (c : Char) : Bool := c.isAlphanum || c == '_'

/-- **Is the text an identifier?** -/
def isName : Text → Bool
  | [] => false
  | c :: cs => isNameStart c && cs.all isNameChar

/-- What begins an identifier can also continue one. -/
theorem isNameChar_of_start {c : Char} (h : isNameStart c = true) :
    isNameChar c = true := by
  simp only [isNameStart, isNameChar, Char.isAlphanum, Bool.or_eq_true] at h ⊢
  exact h.elim (fun h => .inl (.inl h)) .inr

/-! ## Assignments -/

/-- **The reading of a word as an assignment**, as the name and the value. The part before the first
`=` has to be bare and an identifier, and something has to be glued to the `=`: a bare `x=` is no
assignment, while `x=''` assigns the empty text. -/
def Word.assignment? : Word → Option (Text × Word)
  | .bare text :: rest =>
    match text.dropWhile (· != '=') with
    | [] => none
    | _ :: value =>
      if isName (text.takeWhile (· != '=')) && !(value.isEmpty && rest.isEmpty) then
        some (text.takeWhile (· != '='), ofRun value ++ rest)
      else none
  | _ => none

@[simp] theorem Word.assignment?_nil : assignment? [] = none := rfl

@[simp] theorem Word.assignment?_quoted (q : Quote) (t : Text) (w : Word) :
    assignment? (.quoted q t :: w) = none := rfl

/-- Only an identifier is ever assigned to. -/
theorem Word.isName_of_assignment? {w value : Word} {name : Text}
    (h : assignment? w = some (name, value)) : isName name = true := by
  unfold assignment? at h
  split at h
  · split at h
    · simp at h
    · split at h
      next hn => simp_all
      next => simp at h
  · simp at h

example : Word.assignment? [.bare "x=a=b".toList] = some ("x".toList, [.bare "a=b".toList]) := by
  decide

example : Word.assignment? [.bare "x=".toList] = none ∧
    Word.assignment? [.bare "x=".toList, .quoted .single []]
      = some ("x".toList, [.quoted .single []]) := by
  decide

end PipeShell
