import PipeShell.Store
import PipeShell.Word

/-! # Expansion of variable references

Bare and double-quoted parts may refer to variables as `$name`, where the name is the longest
identifier after the `$`. Single-quoted parts are literal.

* **`expand σ t`** — the text `t` with every reference replaced by its value in `σ`.
* **`Word.value σ w`** — the text that a word stands for in `σ`.

A value is copied as it is: nothing in it is read as a reference, a quote or a separator. -/

namespace PipeShell

/-- Does a name begin here? -/
def startsName : Text → Bool
  | [] => false
  | c :: _ => isNameStart c

@[simp] theorem startsName_nil : startsName [] = false := rfl

@[simp] theorem startsName_cons (c : Char) (t : Text) :
    startsName (c :: t) = isNameStart c := rfl

/-- **Replace every reference by its value.** A `$` that no name follows stands for itself. -/
def expand (σ : Store) : Text → Text
  | [] => []
  | c :: rest =>
    if c = '$' ∧ startsName rest = true then
      σ.get (rest.takeWhile isNameChar) ++ expand σ (rest.dropWhile isNameChar)
    else c :: expand σ rest
termination_by t => t.length
decreasing_by
  · exact Nat.lt_succ_of_le (List.dropWhile_sublist isNameChar).length_le
  · simp

@[simp] theorem expand_nil (σ : Store) : expand σ [] = [] := by
  rw [expand]

/-- A character that is no `$` stands for itself. -/
theorem expand_cons_of_ne (σ : Store) {c : Char} (h : c ≠ '$') (t : Text) :
    expand σ (c :: t) = c :: expand σ t := by
  rw [expand, if_neg (fun hc => h hc.1)]

/-- A `$` before a name stands, with the name, for the value of the name. -/
theorem expand_reference (σ : Store) {t : Text} (h : startsName t = true) :
    expand σ ('$' :: t)
      = σ.get (t.takeWhile isNameChar) ++ expand σ (t.dropWhile isNameChar) := by
  rw [expand, if_pos ⟨rfl, h⟩]

/-- A `$` that no name follows stands for itself. -/
theorem expand_dollar (σ : Store) {t : Text} (h : startsName t = false) :
    expand σ ('$' :: t) = '$' :: expand σ t := by
  rw [expand, if_neg (by simp [h])]

/-- A text without a `$` stands for itself. -/
theorem expand_of_not_mem (σ : Store) {t : Text} (h : '$' ∉ t) : expand σ t = t := by
  induction t with
  | nil => exact expand_nil σ
  | cons c t ih =>
    rw [expand_cons_of_ne σ (fun hc => h (hc ▸ List.mem_cons_self)),
      ih (fun ht => h (List.mem_cons_of_mem c ht))]

/-! ## Words -/

/-- The text that a part stands for. -/
def Part.value (σ : Store) : Part → Text
  | .bare t => expand σ t
  | .quoted .double t => expand σ t
  | .quoted .single t => t

/-- **The text that a word stands for**: its parts one after the other, each on its own. -/
def Word.value (σ : Store) (w : Word) : Text := w.flatMap (Part.value σ)

@[simp] theorem Word.value_nil (σ : Store) : Word.value σ [] = [] := rfl

@[simp] theorem Word.value_cons (σ : Store) (p : Part) (w : Word) :
    Word.value σ (p :: w) = p.value σ ++ Word.value σ w := rfl

/-- The value of two words glued together is that of the first, then that of the second. -/
@[simp] theorem Word.value_append (σ : Store) (v w : Word) :
    Word.value σ (v ++ w) = Word.value σ v ++ Word.value σ w := by
  simp [value]

example : expand (Store.ofList [("x".toList, "$y".toList)]) "a$x-$$1".toList
    = "a$y-$$1".toList := by
  simp [expand, startsName, isNameStart, isNameChar, Store.ofList, Store.bind,
    Store.update, Store.get, Store.find?]

end PipeShell
