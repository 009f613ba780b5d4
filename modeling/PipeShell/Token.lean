import PipeShell.Word

/-! # The tokens of a command line

A line is first cut into lexemes, words and pipe operators, by `scan`; then the leading `name=value`
words of each pipeline stage are told apart from the others by `tokensFrom`.

* **`Lexeme`** — a word or a pipe operator.
* **`Item`** — what stands between pipe operators: a word or an assignment.
* **`Token`** — an item or a pipe operator. -/

namespace PipeShell

/-- What the characters of a line spell. -/
inductive Lexeme where
  | word (w : Word)
  | pipe
  deriving DecidableEq, Repr

/-- What a pipeline stage is made of. -/
inductive Item where
  /-- A word of the command. -/
  | word (w : Word)
  /-- A variable and the value to be bound to it. -/
  | assign (name : Text) (value : Word)
  deriving DecidableEq, Repr

/-- Is the item a word of the command? -/
def Item.isWord : Item → Bool
  | .word _ => true
  | .assign _ _ => false

/-- What a line consists of. -/
inductive Token where
  /-- A part of a stage. -/
  | item (i : Item)
  /-- The operator between two stages. -/
  | pipe
  deriving DecidableEq, Repr

/-- A word as a token. -/
abbrev Token.word (w : Word) : Token := .item (.word w)

/-- An assignment as a token. -/
abbrev Token.assign (name : Text) (value : Word) : Token := .item (.assign name value)

/-- **Tell assignments from words.** An assignment stands at the start of a stage, before any word;
the flag says whether we are still there. -/
def tokensFrom : Bool → List Lexeme → List Token
  | _, [] => []
  | _, .pipe :: ls => .pipe :: tokensFrom true ls
  | false, .word w :: ls => .word w :: tokensFrom false ls
  | true, .word w :: ls =>
    match w.assignment? with
    -- after an assignment we are still at the start of the stage
    | some (name, value) => .assign name value :: tokensFrom true ls
    | none => .word w :: tokensFrom false ls

@[simp] theorem tokensFrom_nil (atStart : Bool) : tokensFrom atStart [] = [] := by
  cases atStart <;> rfl

@[simp] theorem tokensFrom_pipe (atStart : Bool) (ls : List Lexeme) :
    tokensFrom atStart (.pipe :: ls) = .pipe :: tokensFrom true ls := by
  cases atStart <;> rfl

end PipeShell
