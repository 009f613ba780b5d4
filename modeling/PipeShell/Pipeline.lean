import PipeShell.Token.Lexer
import PipeShell.Word.Expansion

/-! # Pipelines

The tokens of a line, cut at the pipe operators, become the stages of a pipeline. Assignments are
installed and words expanded strictly from left to right, so a reference sees the assignments before
it on the line and none after it.

* **`Stage`** — a command name and its arguments.
* **`groups`** — the items between pipe operators.
* **`plan σ tokens`** — the stages to run and the store they leave, or the rejection of the line.
* **`planLine σ line`** — the same for a line of text. -/

namespace PipeShell

/-- One command of a pipeline: its name and its arguments, as texts. -/
structure Stage where
  name : Text
  args : List Text
  deriving DecidableEq, Repr

/-- What is to be run, and the bindings after the line. An empty list of stages means that there is
nothing to run. -/
structure Plan where
  stages : List Stage
  store : Store
  deriving DecidableEq, Repr

/-! ## Groups -/

/-- **The items between pipe operators**; always one group more than there are operators. -/
def groups : List Token → List (List Item)
  | [] => [[]]
  | .pipe :: ts => [] :: groups ts
  | .item i :: ts =>
    match groups ts with
    | [] => [[i]]
    | g :: gs => (i :: g) :: gs

@[simp] theorem groups_nil : groups [] = [[]] := rfl

@[simp] theorem groups_pipe (ts : List Token) : groups (.pipe :: ts) = [] :: groups ts := rfl

/-- There is always a group. -/
theorem groups_ne_nil (ts : List Token) : groups ts ≠ [] := by
  cases ts with
  | nil => simp
  | cons t ts =>
    cases t with
    | pipe => simp
    | item i => rw [groups]; split <;> simp

/-- Is the line well formed? In a line with a pipe operator, every group has to name a command. -/
def isWellFormed (gs : List (List Item)) : Bool := gs.length ≤ 1 || gs.all (·.any Item.isWord)

/-! ## From left to right -/

/-- The texts of the words of a group, and the store after its assignments. -/
def readItems (σ : Store) : List Item → List Text × Store
  | [] => ([], σ)
  | .assign name value :: is => readItems (σ.bind name (value.value σ)) is
  | .word w :: is => (w.value σ :: (readItems σ is).1, (readItems σ is).2)

@[simp] theorem readItems_nil (σ : Store) : readItems σ [] = ([], σ) := rfl

@[simp] theorem readItems_assign (σ : Store) (name : Text) (value : Word) (is : List Item) :
    readItems σ (.assign name value :: is) = readItems (σ.bind name (value.value σ)) is := rfl

/-- The stage that a group of texts makes: the first is its name. -/
def Stage.ofTexts? : List Text → Option Stage
  | [] => none
  | name :: args => some ⟨name, args⟩

/-- The stages of the groups, and the store after all their assignments. A group without words makes
no stage. -/
def readGroups (σ : Store) : List (List Item) → Plan
  | [] => ⟨[], σ⟩
  | g :: gs =>
    let (texts, τ) := readItems σ g
    let rest := readGroups τ gs
    ⟨(Stage.ofTexts? texts).toList ++ rest.stages, rest.store⟩

/-- **The plan of a line.** A line that is not well formed is rejected as a whole: none of its
assignments takes effect. -/
def plan (σ : Store) (tokens : List Token) : Except Rejection Plan :=
  if isWellFormed (groups tokens) then .ok (readGroups σ (groups tokens)) else .error .missingCommand

/-- **The plan of a line of text.** -/
def planLine (σ : Store) (line : Text) : Except Rejection Plan := (lex line).bind (plan σ)

/-- A line without tokens plans nothing. -/
@[simp] theorem plan_nil (σ : Store) : plan σ [] = .ok ⟨[], σ⟩ := rfl

end PipeShell
