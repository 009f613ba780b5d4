import PipeShell.Command.Surroundings

/-! # Counting lines, words and bytes

* **`Bytes.counts`** — the counts of some bytes.
* **`Counts.row`** — how they are shown, with a label or without.
* **`count`** — the command. -/

namespace PipeShell

/-- The bytes that separate words: space, tab, line feed, vertical tab, form feed and carriage
return. -/
def isWordBreak (b : UInt8) : Bool := b == 0x20 || (0x09 ≤ b && b ≤ 0x0D)

/-- The numbers of lines, words and bytes. -/
structure Counts where
  lines : Nat := 0
  words : Nat := 0
  bytes : Nat := 0
  deriving DecidableEq, Repr

/-- **The counts of some bytes.** A line is counted at its line feed; a word is a non-empty stretch
between separators. -/
def Bytes.counts (data : Bytes) : Counts where
  lines := data.count lineFeed
  words := (fields isWordBreak data).countP fun w => !w.isEmpty
  bytes := data.length

/-- The sum of two counts. -/
def Counts.add (a b : Counts) : Counts := ⟨a.lines + b.lines, a.words + b.words, a.bytes + b.bytes⟩

/-- The sum of some counts. -/
def Counts.sum (cs : List Counts) : Counts := cs.foldr Counts.add {}

@[simp] theorem Counts.sum_nil : Counts.sum [] = {} := rfl

@[simp] theorem Counts.sum_cons (c : Counts) (cs : List Counts) :
    Counts.sum (c :: cs) = c.add (Counts.sum cs) := rfl

/-- A number in decimal digits. -/
def decimal (n : Nat) : Text := Nat.toDigits 10 n

/-- **A row of counts**: a space, the three numbers with tabs between them, and the label, if there is
one, after a space. -/
def Counts.row (c : Counts) (label : Option Text) : Bytes :=
  Text.utf8 (' ' :: decimal c.lines ++ '\t' :: decimal c.words ++ '\t' :: decimal c.bytes ++
    match label with
    | some label => ' ' :: label
    | none => []) ++ [lineFeed]

/-- The row of totals, if more than one of the files can be read. -/
def totalRow (s : Surroundings) (names : List Text) : List Write :=
  match names.filterMap s.read? with
  | a :: b :: rest =>
    [.out ((Counts.sum ((a :: b :: rest).map Bytes.counts)).row (some s.locale.total))]
  | _ => []

/-- **Count lines, words and bytes** of each file, or of the input if there is none. -/
def count (cmd : Text) (s : Surroundings) (names : List Text) (input : Source) : Transcript :=
  match names with
  | [] => input.filter fun data => (Bytes.counts data).row none
  | names => s.overFiles cmd (fun name data => (Bytes.counts data).row (some name)) names (totalRow s names)

example : Bytes.counts (Text.utf8 "a b\n\x0bж\n".toList) = ⟨2, 3, 8⟩ := by decide +kernel

example : (Bytes.counts [0x61, 0x0A]).row (some "f".toList) = Text.utf8 " 1\t1\t2 f\n".toList := by
  decide +kernel

end PipeShell
