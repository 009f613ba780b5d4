import PipeShell.Proofs.Expanding

/-! # Texts that are expanded in two parts

A text can be expanded in two parts wherever it is cut, except within a reference: between the `$` and
the name, or within the name.

* **`ReferenceGoesOn`** — a reference begins in one text and goes on in the next.
* **`FitTogether.append_of_not_goesOn`** — unless one does, the fragments of the texts fit together.
* **`expand_append`**, **`expand_append_ne`** — then expansion distributes over the concatenation of the
  texts, and otherwise it does not.
* **`Word.value_divided`** — the parts of words that can be divided between two texts. -/

namespace PipeShell

/-! ## References that go on -/

/-- **Does a reference go on from one text to the next?** The first ends with a `$` and a name begins with
the second, or the first ends with a `$` and a name that goes on with the second. -/
def ReferenceGoesOn (as bs : Text) : Prop :=
  (∃ before, as = before ++ ['$'] ∧ startsName bs = true) ∨
    ∃ before name, as = before ++ '$' :: name ∧ isName name = true ∧ continuesName bs = true

/-- No reference goes on with a `$`. -/
theorem not_referenceGoesOn_dollar (as t : Text) : ¬ ReferenceGoesOn as ('$' :: t) := by
  have hchar : isNameStart '$' = false ∧ isNameChar '$' = false := by decide
  rintro (⟨-, -, hstart⟩ | ⟨-, -, -, -, hcontinue⟩)
  · exact absurd hstart (by simp [hchar.1])
  · exact absurd hcontinue (by simp [hchar.2])

/-- **The fragments of two texts fit together** unless a reference goes on from one to the other: only the
last fragment of the first could not stand in front of the second. -/
theorem FitTogether.append_of_not_goesOn {fs gs : List Fragment} (hf : FitTogether fs)
    (hg : FitTogether gs) (h : ¬ ReferenceGoesOn (written fs) (written gs)) :
    FitTogether (fs ++ gs) := by
  apply hf.append hg
  intro f hlast
  obtain ⟨es, rfl⟩ := List.getLast?_eq_some_iff.1 hlast
  have hwritten : written (es ++ [f]) = written es ++ f.text := by simp
  have hend : f.StandsBefore [] := hf.of_append.1
  -- a `$` or a reference that could not stand there would go on
  cases f with
  | plain c => exact hend
  | dollar => exact Bool.eq_false_iff.2 fun hstart => h (.inl ⟨written es, hwritten, hstart⟩)
  | reference name =>
    refine ⟨hend.1, Bool.eq_false_iff.2 fun hcontinue => h (.inr ?_)⟩
    exact ⟨written es, name, hwritten, hend.1, hcontinue⟩

/-- Where a reference goes on, a name that begins at the `$` extends over the end of the first text. -/
theorem ReferenceGoesOn.exists_name {as bs : Text} (h : ReferenceGoesOn as bs) :
    ∃ before name : Text, as = before ++ '$' :: name ∧ (∀ c ∈ name, isNameChar c = true) ∧
      startsName (name ++ bs) = true ∧ continuesName bs = true := by
  rcases h with ⟨before, rfl, hstart⟩ | ⟨before, name, rfl, hname, hcontinue⟩
  · refine ⟨before, [], rfl, by simp, hstart, ?_⟩
    cases bs with
    | nil => cases hstart
    | cons c bs => exact isNameChar_of_start hstart
  · exact ⟨before, name, rfl, fun c hc => isNameChar_of_mem hname hc, startsName_append hname bs,
      hcontinue⟩

/-! ## Expansion in two parts -/

/-- **Expansion distributes over the concatenation of texts** if no reference goes on. -/
theorem expand_append (σ : Store) {as bs : Text} (h : ¬ ReferenceGoesOn as bs) :
    expand σ (as ++ bs) = expand σ as ++ expand σ bs := by
  obtain ⟨fs, hfs, rfl⟩ := nonempty_decomposition as
  obtain ⟨gs, hgs, rfl⟩ := nonempty_decomposition bs
  rw [← written_append, expand_written σ (hfs.append_of_not_goesOn hgs h), expand_written σ hfs,
    expand_written σ hgs, List.flatMap_append]

/-- The characters that could continue a name stand for themselves if no reference precedes them. -/
theorem expand_takeWhile_append (σ : Store) (t : Text) :
    expand σ t = t.takeWhile isNameChar ++ expand σ (t.dropWhile isNameChar) := by
  have hcopied : '$' ∉ t.takeWhile isNameChar := fun hmem =>
    absurd (List.mem_takeWhile_imp hmem) (by decide)
  rw [← expand_append_of_not_mem σ hcopied, List.takeWhile_append_dropWhile]

/-- **Expansion does not distribute if a reference goes on**: where nothing is bound, the second text
loses what it adds to the name only if it is expanded together with the first. -/
theorem expand_append_ne {as bs : Text} (h : ReferenceGoesOn as bs) :
    expand {} (as ++ bs) ≠ expand {} as ++ expand {} bs := by
  obtain ⟨before, name, rfl, hname, hstart, hcontinue⟩ := h.exists_name
  have hbefore (t : Text) :
      expand {} (before ++ '$' :: t) = expand {} before ++ expand {} ('$' :: t) :=
    expand_append {} (not_referenceGoesOn_dollar before t)
  -- together, the name extends to the end of what can continue it, and has no value
  have htogether : expand {} ('$' :: (name ++ bs)) = expand {} (bs.dropWhile isNameChar) := by
    rw [expand_reference {} hstart, List.dropWhile_append_of_pos hname, Store.get_empty, List.nil_append]
  -- apart, the second text keeps that, and there is something to keep
  have hlost : 0 < (bs.takeWhile isNameChar).length := by
    cases bs with
    | nil => cases hcontinue
    | cons c bs =>
      have hc : isNameChar c = true := hcontinue
      simp [hc]
  intro heq
  have hlength := congrArg List.length heq
  rw [List.append_assoc, List.cons_append, hbefore, hbefore, htogether,
    expand_takeWhile_append {} bs] at hlength
  simp only [List.length_append] at hlength
  omega

/-! ## Parts of words -/

/-- **Can a part be divided between two texts?** In every word and every store it has the same value as
two parts of its kind, one for each of the texts. -/
def Part.Divides (part : Text → Part) (as bs : Text) : Prop :=
  ∀ (σ : Store) (before after : Word),
    Word.value σ (before ++ part (as ++ bs) :: after)
      = Word.value σ (before ++ part as :: part bs :: after)

/-- What stands before and after a part does not matter. -/
theorem Part.divides_iff (part : Text → Part) (as bs : Text) :
    Part.Divides part as bs ↔
      ∀ σ, (part (as ++ bs)).value σ = (part as).value σ ++ (part bs).value σ := by
  constructor
  · intro h σ
    simpa using h σ [] []
  · intro h σ before after
    simp [h σ]

/-- **Texts that can be expanded in two parts, and parts that can be divided.** Unless a reference goes on
from one text to the next, the expansion of both is that of the one and then that of the other, in every
store, and so a part outside quotes or in double quotes can be divided between them. If a reference does
go on, neither is the case. A part in single quotes can always be divided. -/
theorem Word.value_divided (as bs : Text) :
    (¬ ReferenceGoesOn as bs ↔ ∀ σ, expand σ (as ++ bs) = expand σ as ++ expand σ bs) ∧
      (¬ ReferenceGoesOn as bs ↔ Part.Divides .bare as bs) ∧
      (¬ ReferenceGoesOn as bs ↔ Part.Divides (.quoted .double) as bs) ∧
      Part.Divides (.quoted .single) as bs := by
  have hexpand : ¬ ReferenceGoesOn as bs ↔
      ∀ σ, expand σ (as ++ bs) = expand σ as ++ expand σ bs :=
    ⟨fun h σ => expand_append σ h, fun h hgoes => expand_append_ne hgoes (h {})⟩
  exact ⟨hexpand, hexpand.trans (Part.divides_iff .bare as bs).symm,
    hexpand.trans (Part.divides_iff (.quoted .double) as bs).symm,
    (Part.divides_iff (.quoted .single) as bs).2 fun _ => rfl⟩

end PipeShell
