import Mathlib.Data.List.Basic
import Mathlib.Data.List.TakeWhile
import PipeShell.Proofs.Lexing
import PipeShell.Word.Expansion

/-! # The grammar of references

What expansion reads as a reference can be said without reading: a text is cut, in one way only, into
single characters and references that are as long as they can be. Its value is then put together from
the values of the fragments, and nothing in a value is looked at.

* **`Fragment`**, **`written`** — the fragments of a text and the text that they make up.
* **`Decomposition t`** — a way to cut a text into fragments that fit together; there is exactly one.
* **`expand_written`** — a text that is made up of fragments has their values.
* **`expandInto`** — expansion as a loop that goes from one `$` to the next and appends to its output.
* **`Word.value_grammar`** — the value of a word, part by part and fragment by fragment. -/

namespace PipeShell

/-! ## Fragments -/

/-- A piece of a text that may hold references. -/
inductive Fragment where
  /-- A character other than `$`. -/
  | plain (c : Char)
  /-- A `$` that refers to nothing. -/
  | dollar
  /-- A `$` and the name that it refers to. -/
  | reference (name : Text)
  deriving DecidableEq, Repr

/-- The characters of a fragment. -/
def Fragment.text : Fragment → Text
  | .plain c => [c]
  | .dollar => ['$']
  | .reference name => '$' :: name

/-- **What a fragment stands for.** The value of a name is copied as it is. -/
def Fragment.value (σ : Store) : Fragment → Text
  | .plain c => [c]
  | .dollar => ['$']
  | .reference name => σ.get name

/-- Does a name go on here? -/
def continuesName : Text → Bool
  | [] => false
  | c :: _ => isNameChar c

@[simp] theorem continuesName_nil : continuesName [] = false := rfl

@[simp] theorem continuesName_cons (c : Char) (t : Text) :
    continuesName (c :: t) = isNameChar c := rfl

/-- Can the fragment stand in front of the text? A `$` that could refer to something does, and to the
longest name that it can refer to. -/
def Fragment.StandsBefore (rest : Text) : Fragment → Prop
  | .plain c => c ≠ '$'
  | .dollar => startsName rest = false
  | .reference name => isName name = true ∧ continuesName rest = false

instance Fragment.decidableStandsBefore (rest : Text) :
    (f : Fragment) → Decidable (f.StandsBefore rest)
  | .plain c => inferInstanceAs (Decidable (c ≠ '$'))
  | .dollar => inferInstanceAs (Decidable (startsName rest = false))
  | .reference name =>
    inferInstanceAs (Decidable (isName name = true ∧ continuesName rest = false))

/-- What a fragment can stand in front of is settled by the first character of it. -/
theorem Fragment.standsBefore_append {xs : Text} (h : xs ≠ []) (ys : Text) (f : Fragment) :
    f.StandsBefore (xs ++ ys) ↔ f.StandsBefore xs := by
  obtain ⟨x, xs, rfl⟩ := List.exists_cons_of_ne_nil h
  cases f <;> exact Iff.rfl

/-- **The text that fragments make up.** -/
def written (fs : List Fragment) : Text := fs.flatMap Fragment.text

@[simp] theorem written_nil : written [] = [] := rfl

@[simp] theorem written_cons (f : Fragment) (fs : List Fragment) :
    written (f :: fs) = f.text ++ written fs := rfl

/-- **Do the fragments fit together?** Each of them has to stand in front of the text of those that
follow it. -/
def FitTogether : List Fragment → Prop
  | [] => True
  | f :: fs => f.StandsBefore (written fs) ∧ FitTogether fs

@[simp] theorem fitTogether_nil : FitTogether [] := trivial

@[simp] theorem fitTogether_cons {f : Fragment} {fs : List Fragment} :
    FitTogether (f :: fs) ↔ f.StandsBefore (written fs) ∧ FitTogether fs := Iff.rfl

instance decidableFitTogether : (fs : List Fragment) → Decidable (FitTogether fs)
  | [] => inferInstanceAs (Decidable True)
  | f :: fs =>
    have := decidableFitTogether fs
    inferInstanceAs (Decidable (f.StandsBefore (written fs) ∧ FitTogether fs))

/-- No fragment is empty. -/
theorem Fragment.text_ne_nil (f : Fragment) : f.text ≠ [] := by
  cases f <;> simp [text]

@[simp] theorem written_append (fs gs : List Fragment) :
    written (fs ++ gs) = written fs ++ written gs := by
  simp [written]

/-- **Fragments fit together with others behind them** if the last of them can stand there. -/
theorem FitTogether.append {fs gs : List Fragment} (hf : FitTogether fs) (hg : FitTogether gs)
    (hlast : ∀ f ∈ fs.getLast?, f.StandsBefore (written gs)) : FitTogether (fs ++ gs) := by
  induction fs with
  | nil => exact hg
  | cons f fs ih =>
    obtain ⟨hstands, hfs⟩ := hf
    cases fs with
    | nil => exact ⟨hlast f rfl, hg⟩
    | cons g fs =>
      have hne : written (g :: fs) ≠ [] := by simp [g.text_ne_nil]
      rw [List.getLast?_cons_cons] at hlast
      rw [List.cons_append, fitTogether_cons, written_append]
      exact ⟨(Fragment.standsBefore_append hne _ f).2 hstands, ih hfs hlast⟩

/-- The last fragments fit together as well. -/
theorem FitTogether.of_append {fs gs : List Fragment} (h : FitTogether (fs ++ gs)) :
    FitTogether gs := by
  induction fs with
  | nil => exact h
  | cons f fs ih => exact ih h.2

/-! ## The only decomposition -/

/-- An identifier that does not go on is the longest one at its place. -/
theorem takeWhile_dropWhile_isNameChar {name rest : Text} (hname : isName name = true)
    (hrest : continuesName rest = false) :
    (name ++ rest).takeWhile isNameChar = name ∧ (name ++ rest).dropWhile isNameChar = rest := by
  have hall : ∀ c ∈ name, isNameChar c = true := fun c hc => isNameChar_of_mem hname hc
  rw [List.takeWhile_append_of_pos hall, List.dropWhile_append_of_pos hall]
  cases rest with
  | nil => simp
  | cons c rest =>
    have hc : isNameChar c = false := hrest
    simp [hc]

/-- An identifier begins as identifiers do. -/
theorem startsName_append {name : Text} (h : isName name = true) (rest : Text) :
    startsName (name ++ rest) = true := by
  cases name with
  | nil => cases h
  | cons c name => exact (Bool.and_eq_true_iff.1 h).1

/-- **A text begins with one fragment at most**, and what follows it is known too. -/
theorem Fragment.eq_of_text_append_eq {f g : Fragment} {xs ys : Text} (hf : f.StandsBefore xs)
    (hg : g.StandsBefore ys) (h : f.text ++ xs = g.text ++ ys) : f = g ∧ xs = ys := by
  -- a `$` refers to something or does not, as what follows it says
  have hlone : ∀ {name us vs : Text}, isName name = true → startsName us = false →
      us ≠ name ++ vs := by
    rintro name us vs hname hus rfl
    rw [startsName_append hname vs] at hus
    cases hus
  cases f with
  | plain c =>
    cases g with
    | plain d =>
      obtain ⟨rfl, hrest⟩ := List.cons.inj h
      exact ⟨rfl, hrest⟩
    | dollar => exact absurd (List.cons.inj h).1 hf
    | reference name => exact absurd (List.cons.inj h).1 hf
  | dollar =>
    cases g with
    | plain d => exact absurd (List.cons.inj h).1.symm hg
    | dollar => exact ⟨rfl, (List.cons.inj h).2⟩
    | reference name => exact absurd (List.cons.inj h).2 (hlone hg.1 hf)
  | reference name =>
    cases g with
    | plain d => exact absurd (List.cons.inj h).1.symm hg
    | dollar => exact absurd (List.cons.inj h).2.symm (hlone hf.1 hg)
    | reference other =>
      obtain ⟨hname, hrest⟩ := takeWhile_dropWhile_isNameChar hf.1 hf.2
      obtain ⟨hother, hrest'⟩ := takeWhile_dropWhile_isNameChar hg.1 hg.2
      have hsame : name ++ xs = other ++ ys := (List.cons.inj h).2
      rw [hsame] at hname hrest
      obtain rfl : other = name := hother.symm.trans hname
      exact ⟨rfl, hrest.symm.trans hrest'⟩

/-- Fragments that fit together are known from the text that they make up. -/
theorem eq_of_written_eq {fs gs : List Fragment} (hf : FitTogether fs) (hg : FitTogether gs)
    (h : written fs = written gs) : fs = gs := by
  induction fs generalizing gs with
  | nil =>
    cases gs with
    | nil => rfl
    | cons g gs => exact absurd (List.append_eq_nil_iff.1 h.symm).1 g.text_ne_nil
  | cons f fs ih =>
    cases gs with
    | nil => exact absurd (List.append_eq_nil_iff.1 h).1 f.text_ne_nil
    | cons g gs =>
      obtain ⟨rfl, hrest⟩ := Fragment.eq_of_text_append_eq hf.1 hg.1 h
      rw [ih hf.2 hg.2 hrest]

/-- **A way to cut a text into fragments.** -/
structure Decomposition (t : Text) where
  /-- The fragments, in order. -/
  fragments : List Fragment
  fit : FitTogether fragments
  spelling : written fragments = t

/-- A `$` and a name are one reference. -/
def Decomposition.ofName {name : Text} (h : isName name = true) : Decomposition ('$' :: name) where
  fragments := [.reference name]
  fit := ⟨⟨h, rfl⟩, trivial⟩
  spelling := List.append_nil _

/-- There is at most one way to cut a text. -/
instance (t : Text) : Subsingleton (Decomposition t) := by
  constructor
  rintro ⟨fs, hfs, hf⟩ ⟨gs, hgs, hg⟩
  obtain rfl : fs = gs := eq_of_written_eq hfs hgs (hf.trans hg.symm)
  rfl

/-- The longest name that begins here is an identifier, and it does not go on. -/
theorem isName_takeWhile {t : Text} (h : startsName t = true) :
    isName (t.takeWhile isNameChar) = true ∧ continuesName (t.dropWhile isNameChar) = false := by
  constructor
  · cases t with
    | nil => cases h
    | cons c t =>
      rw [List.takeWhile_cons_of_pos (isNameChar_of_start h), isName, Bool.and_eq_true]
      exact ⟨h, List.all_takeWhile⟩
  · have hnot := List.head?_dropWhile_not isNameChar t
    cases hrest : t.dropWhile isNameChar with
    | nil => rfl
    | cons c rest => simpa [hrest] using hnot

/-- **Every text can be cut into fragments**, as expansion reads it. -/
theorem nonempty_decomposition (t : Text) : Nonempty (Decomposition t) := by
  induction t using expand.induct with
  | case1 => exact ⟨[], trivial, rfl⟩
  | case2 c rest h ih =>
    obtain ⟨rfl, hstart⟩ := h
    obtain ⟨fs, hfs, hrest⟩ := ih
    obtain ⟨hname, hend⟩ := isName_takeWhile hstart
    rw [← hrest] at hend
    refine ⟨.reference (rest.takeWhile isNameChar) :: fs, ⟨⟨hname, hend⟩, hfs⟩, ?_⟩
    rw [written_cons, hrest, Fragment.text, List.cons_append, List.takeWhile_append_dropWhile]
  | case3 c rest h ih =>
    obtain ⟨fs, hfs, rfl⟩ := ih
    by_cases hc : c = '$'
    · subst hc
      have hstart : startsName (written fs) = false := by simpa using h
      exact ⟨.dollar :: fs, ⟨hstart, hfs⟩, rfl⟩
    · exact ⟨.plain c :: fs, ⟨hc, hfs⟩, rfl⟩

/-! ## The value of a text -/

/-- The values of fragments, one after the other. -/
def Decomposition.value {t : Text} (σ : Store) (d : Decomposition t) : Text :=
  d.fragments.flatMap (Fragment.value σ)

/-- **A text that is made up of fragments has their values.** -/
theorem expand_written (σ : Store) {fs : List Fragment} (h : FitTogether fs) :
    expand σ (written fs) = fs.flatMap (Fragment.value σ) := by
  induction fs with
  | nil => exact expand_nil σ
  | cons f fs ih =>
    obtain ⟨hf, hfs⟩ := h
    rw [written_cons, List.flatMap_cons, ← ih hfs]
    cases f with
    | plain c => exact expand_cons_of_ne σ hf (written fs)
    | dollar => exact expand_dollar σ hf
    | reference name =>
      obtain ⟨htake, hdrop⟩ := takeWhile_dropWhile_isNameChar hf.1 hf.2
      rw [Fragment.text, List.cons_append, expand_reference σ (startsName_append hf.1 _), htake, hdrop]
      rfl

/-- Expansion gives the value of the decomposition. -/
theorem Decomposition.expand_eq (σ : Store) {t : Text} (d : Decomposition t) :
    expand σ t = d.value σ := by
  obtain ⟨fs, hfs, rfl⟩ := d
  exact expand_written σ hfs

/-! ## Expansion as a loop -/

/-- What stands behind the first place of a character is shorter than the text. -/
theorem length_lt_of_dropWhile {t after : Text} {p : Char → Bool} {c : Char}
    (h : t.dropWhile p = c :: after) : after.length < t.length := by
  have hle := (List.dropWhile_sublist p (l := t)).length_le
  rw [h, List.length_cons] at hle
  exact hle

/-- **Expansion from one `$` to the next.** What stands before the `$` goes to the output as it is, then
the value of the reference that begins there, or the `$` itself, and the loop goes on behind it. -/
def expandInto (σ : Store) (out rest : Text) : Text :=
  match h : rest.dropWhile (· != '$') with
  | [] => out ++ rest
  | _ :: after =>
    have := length_lt_of_dropWhile h
    if startsName after then
      expandInto σ (out ++ rest.takeWhile (· != '$') ++ σ.get (after.takeWhile isNameChar))
        (after.dropWhile isNameChar)
    else expandInto σ (out ++ rest.takeWhile (· != '$') ++ ['$']) after
termination_by rest.length
decreasing_by
  · exact Nat.lt_of_le_of_lt (List.dropWhile_sublist isNameChar).length_le this
  · exact this

/-- What has no `$` in it is copied, whatever follows it. -/
theorem expand_append_of_not_mem (σ : Store) {before : Text} (h : '$' ∉ before) (t : Text) :
    expand σ (before ++ t) = before ++ expand σ t := by
  induction before with
  | nil => rfl
  | cons c before ih =>
    obtain ⟨hc, hbefore⟩ := not_or.1 (mt List.mem_cons.2 h)
    rw [List.cons_append, expand_cons_of_ne σ (Ne.symm hc), ih hbefore, List.cons_append]

/-- A text is expanded behind its first `$` once what precedes that has been copied. -/
theorem expand_of_dropWhile (σ : Store) {t after : Text} {c : Char}
    (h : t.dropWhile (· != '$') = c :: after) :
    expand σ t = t.takeWhile (· != '$') ++ expand σ ('$' :: after) := by
  have hcopied : '$' ∉ t.takeWhile (· != '$') := by
    intro hmem
    have hne := List.mem_takeWhile_imp hmem
    simp at hne
  rw [← expand_append_of_not_mem σ hcopied, takeWhile_append_of_dropWhile h]

/-- **The loop appends the value of the text to its output.** -/
theorem expandInto_eq (σ : Store) (out t : Text) : expandInto σ out t = out ++ expand σ t := by
  fun_induction expandInto σ out t with
  | case1 out rest h =>
    have hall := List.dropWhile_eq_nil_iff.1 h
    have hplain : '$' ∉ rest := fun hmem => by simpa using hall '$' hmem
    rw [expand_of_not_mem σ hplain]
  | case2 out rest d after h _ hstart ih =>
    rw [ih, expand_of_dropWhile σ h, expand_reference σ hstart, List.append_assoc, List.append_assoc]
  | case3 out rest d after h _ hstart ih =>
    rw [ih, expand_of_dropWhile σ h, expand_dollar σ (by simpa using hstart), List.append_assoc,
      List.append_assoc, List.singleton_append]

/-- The output after a part of a word. -/
def Part.appendTo (σ : Store) (out : Text) : Part → Text
  | .bare t => expandInto σ out t
  | .quoted .double t => expandInto σ out t
  | .quoted .single t => out ++ t

/-- The loop over the parts appends the value of the word. -/
theorem foldl_appendTo (σ : Store) (w : Word) (out : Text) :
    w.foldl (Part.appendTo σ) out = out ++ w.value σ := by
  induction w generalizing out with
  | nil => exact (List.append_nil out).symm
  | cons p w ih =>
    have hpart : p.appendTo σ out = out ++ p.value σ := by
      cases p with
      | bare t => exact expandInto_eq σ out t
      | quoted q t =>
        cases q with
        | single => rfl
        | double => exact expandInto_eq σ out t
    rw [List.foldl_cons, ih, hpart, Word.value_cons, List.append_assoc]

/-! ## The value of a word -/

/-- **Words have the values that their parts are read to have.** Every text is cut into fragments in
one way only. The value of a word is made up of the parts one after the other: of a part in single
quotes as it is, of any other the values of its fragments, a value being copied and not read again. So
no reference goes on from one part to the next. The loop that appends to an output arrives at the same
value in a single pass. -/
theorem Word.value_grammar (σ : Store) (w : Word) :
    (∀ t : Text, ∃ d : Decomposition t, ∀ e : Decomposition t, e = d) ∧
      (∀ read : (t : Text) → Decomposition t,
        w.value σ = w.flatMap fun
          | .bare t => (read t).value σ
          | .quoted .double t => (read t).value σ
          | .quoted .single t => t) ∧
      w.foldl (Part.appendTo σ) [] = w.value σ := by
  refine ⟨?_, ?_, foldl_appendTo σ w []⟩
  · intro t
    obtain ⟨d⟩ := nonempty_decomposition t
    exact ⟨d, fun e => Subsingleton.elim e d⟩
  · intro read
    apply List.flatMap_congr
    intro p _
    cases p with
    | bare t => exact (read t).expand_eq σ
    | quoted q t =>
      cases q with
      | single => rfl
      | double => exact (read t).expand_eq σ

/-- Of two `$` the second refers to something, a digit after a `$` does not, and a letter that is not
an ASCII letter ends a name. -/
example : ∃ d : Decomposition "$$x1é$1$".toList, d.fragments
    = [.dollar, .reference "x1".toList, .plain 'é', .dollar, .plain '1', .dollar] :=
  ⟨⟨_, by decide, rfl⟩, rfl⟩

end PipeShell
