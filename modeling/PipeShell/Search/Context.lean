import PipeShell.Text.Fields

/-! # Matching lines with the lines after them

* **`select hit after pending lines`** — the lines that match, each with up to `after` lines after it;
  a line shown for the sake of an earlier one is not matched again, so none is shown twice.
* **`printed`** — the bytes for the lines that are shown. -/

namespace PipeShell

/-- **The lines to be shown.** The counter holds how many more lines are shown whether they match or
not. -/
def select (hit : Bytes → Bool) (after : Nat) : Nat → List Bytes → List Bytes
  | _, [] => []
  | pending + 1, l :: ls => l :: select hit after pending ls
  | 0, l :: ls => if hit l then l :: select hit after after ls else select hit after 0 ls

@[simp] theorem select_nil (hit : Bytes → Bool) (after pending : Nat) :
    select hit after pending [] = [] := by
  cases pending <;> rfl

/-- A line that is pending is shown. -/
@[simp] theorem select_succ (hit : Bytes → Bool) (after pending : Nat) (l : Bytes)
    (ls : List Bytes) :
    select hit after (pending + 1) (l :: ls) = l :: select hit after pending ls := rfl

/-- The lines that are pending are shown, and then the others are looked at. -/
theorem select_eq_take_append (hit : Bytes → Bool) (after pending : Nat) (ls : List Bytes) :
    select hit after pending ls = ls.take pending ++ select hit after 0 (ls.drop pending) := by
  induction pending generalizing ls with
  | zero => simp
  | succ pending ih =>
    cases ls with
    | nil => simp
    | cons l ls => rw [select_succ, ih, List.take_succ_cons, List.drop_succ_cons, List.cons_append]

/-- The lines that are shown are lines, in their order. -/
theorem select_sublist (hit : Bytes → Bool) (after pending : Nat) (ls : List Bytes) :
    (select hit after pending ls).Sublist ls := by
  induction ls generalizing pending with
  | nil => simp
  | cons l ls ih =>
    cases pending with
    | succ pending => exact (ih pending).cons_cons l
    | zero =>
      by_cases h : hit l
      · rw [select, if_pos h]
        exact (ih after).cons_cons l
      · rw [select, if_neg h]
        exact (ih 0).cons l

/-- **Among the lines that are shown, the same are shown again**: what is shown after a match is still
there, and what stands between is no match. -/
theorem select_select (hit : Bytes → Bool) (after pending : Nat) (ls : List Bytes) :
    select hit after pending (select hit after pending ls) = select hit after pending ls := by
  induction ls generalizing pending with
  | nil => simp
  | cons l ls ih =>
    cases pending with
    | succ pending => rw [select_succ, select_succ, ih]
    | zero =>
      by_cases h : hit l
      · rw [select, if_pos h, select, if_pos h, ih]
      · rw [select, if_neg h, ih]

/-- Without lines after the match, exactly the matching lines are shown. -/
theorem select_zero (hit : Bytes → Bool) (ls : List Bytes) : select hit 0 0 ls = ls.filter hit := by
  induction ls with
  | nil => rfl
  | cons l ls ih => by_cases h : hit l <;> simp [select, h, ih]

/-- A line as it is printed: behind the label, if there is one, and with one line feed. -/
def printedLine (label : Option Text) (line : Bytes) : Bytes :=
  match label with
  | none => line ++ [lineFeed]
  | some label => label.utf8 ++ Text.utf8 [':'] ++ line ++ [lineFeed]

/-- **What is printed of some bytes**, which are cut into lines first. -/
def printed (hit : Bytes → Bool) (after : Nat) (label : Option Text) (data : Bytes) : Bytes :=
  (select hit after 0 (Bytes.lines data)).flatMap (printedLine label)

example : select (· == [1]) 1 0 [[0], [1], [1], [2], [1]] = [[1], [1], [1]] := by decide

end PipeShell
