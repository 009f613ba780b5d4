import PipeShell.Proofs.NormalForm
import PipeShell.Proofs.Sequencing
import PipeShell.Session

/-! # Which characters a session comes to hold

Reading a line takes it apart, and expanding a word puts values between its characters; no character
comes from anywhere else. So what holds of the characters of all lines and of the first bindings holds of
those of every text that is run or bound.

* **`Text.Over`** — every character of a text has a property; `Word.Over`, `Store.Over` and `Stage.Over`
  say so of all texts that they consist of.
* **`over_of_lex`** — the words of a line consist of characters of the line.
* **`Word.over_value`** — their values consist of these and of those of the bindings.
* **`over_planLine`** — the stages of a line, and the bindings that it leaves.
* **`Session.over_foldl_afterLine`** — the bindings that some lines leave. -/

namespace PipeShell

variable {p : Char → Prop}

/-! ## Texts -/

/-- **Has every character of a text the property?** -/
def Text.Over (p : Char → Prop) (t : Text) : Prop := ∀ c ∈ t, p c

@[simp] theorem Text.over_nil : Text.Over p [] := by
  simp [Over]

@[simp] theorem Text.over_cons {c : Char} {t : Text} :
    Text.Over p (c :: t) ↔ p c ∧ Text.Over p t := List.forall_mem_cons

@[simp] theorem Text.over_append {s t : Text} :
    Text.Over p (s ++ t) ↔ Text.Over p s ∧ Text.Over p t := List.forall_mem_append

/-- A text without a character is one of other characters. -/
theorem Text.over_ne_iff {c : Char} {t : Text} : Text.Over (· ≠ c) t ↔ c ∉ t :=
  ⟨fun h hc => h c hc rfl, fun h _ hd hdc => h (hdc ▸ hd)⟩

/-- Some characters of a text have the properties of all of them. -/
theorem Text.Over.of_subset {s t : Text} (ht : Text.Over p t) (h : s ⊆ t) : Text.Over p s :=
  fun c hc => ht c (h hc)

/-! ## Words -/

/-- The characters of a part, without quotation marks. -/
def Part.text : Part → Text
  | .bare t => t
  | .quoted _ t => t

/-- **Have all characters of a word the property?** Its quotation marks do not count. -/
def Word.Over (p : Char → Prop) (w : Word) : Prop := ∀ part ∈ w, Text.Over p part.text

@[simp] theorem Word.over_nil : Word.Over p [] := by
  simp [Over]

@[simp] theorem Word.over_cons {part : Part} {w : Word} :
    Word.Over p (part :: w) ↔ Text.Over p part.text ∧ Word.Over p w := List.forall_mem_cons

@[simp] theorem Word.over_append {v w : Word} :
    Word.Over p (v ++ w) ↔ Word.Over p v ∧ Word.Over p w := List.forall_mem_append

@[simp] theorem Word.over_ofRun {t : Text} : Word.Over p (ofRun t) ↔ Text.Over p t := by
  cases t <;> simp [Part.text]

/-- The word of segments consists of their characters. -/
theorem Word.over_ofSegments {ss : List Segment} (h : ∀ s ∈ ss, Text.Over p s.text) :
    Word.Over p (ofSegments ss) := by
  induction ss with
  | nil => simp
  | cons s ss ih =>
    obtain ⟨hs, hss⟩ := List.forall_mem_cons.1 h
    have hrest := ih hss
    cases s with
    | span q t =>
      have ht : Text.Over p t := hs.of_subset fun c hc => by simp [Segment.text, hc]
      exact over_cons.2 ⟨ht, hrest⟩
    | plain c =>
      have hc : p c := hs c (by simp [Segment.text])
      rw [ofSegments]
      split
      next t w hw =>
        rw [hw, over_cons] at hrest
        exact over_cons.2 ⟨Text.over_cons.2 ⟨hc, hrest.1⟩, hrest.2⟩
      next => exact over_cons.2 ⟨by simpa [Part.text] using hc, hrest⟩

/-- The value that a word assigns consists of its characters. -/
theorem Word.Over.of_assignment? {w value : Word} {name : Text} (hw : Word.Over p w)
    (h : w.assignment? = some (name, value)) : Word.Over p value := by
  obtain ⟨-, text, rest, rfl, -, rfl⟩ := Word.assignment?_eq_some_iff.1 h
  simp only [Word.over_cons, Part.text, Text.over_append, Text.over_cons] at hw
  obtain ⟨⟨-, -, htext⟩, hrest⟩ := hw
  exact Word.over_append.2 ⟨Word.over_ofRun.2 htext, hrest⟩

/-! ## Lines -/

/-- The word that an item is, or that it assigns. -/
def Item.content : Item → Word
  | .word w => w
  | .assign _ value => value

/-- The items of a stage consist of the characters of its words. -/
theorem over_itemsOf {ws : List Word} (h : ∀ w ∈ ws, Word.Over p w) :
    ∀ i ∈ itemsOf ws, Word.Over p i.content := by
  induction ws with
  | nil => simp [itemsOf]
  | cons w ws ih =>
    obtain ⟨hw, hws⟩ := List.forall_mem_cons.1 h
    cases hassign : w.assignment? with
    | none =>
      rw [itemsOf_cons_of_eq_none hassign]
      exact List.forall_mem_cons.2 ⟨hw, List.forall_mem_map.2 hws⟩
    | some a =>
      rw [itemsOf_cons_of_eq_some hassign]
      exact List.forall_mem_cons.2 ⟨hw.of_assignment? hassign, ih hws⟩

/-- **The words of a line consist of characters of the line.** -/
theorem over_of_lex {line : Text} {tokens : List Token} (hline : Text.Over p line)
    (h : lex line = .ok tokens) : ∀ g ∈ groups tokens, ∀ i ∈ g, Word.Over p i.content := by
  obtain ⟨⟨ss, -, rfl⟩, rfl⟩ := exists_segmentation_of_lex h
  intro g hg
  rw [groups_tokensOf] at hg
  obtain ⟨stage, hstage, rfl⟩ := List.mem_map.1 hg
  refine over_itemsOf fun w hw => ?_
  obtain ⟨run, hrun, rfl⟩ := List.mem_map.1 hw
  refine Word.over_ofSegments fun s hs => hline.of_subset fun c hc => ?_
  have hmem : s ∈ ss :=
    (of_mem_splitOnP hstage (of_mem_splitOnP (List.mem_filter.1 hrun).1 hs).1).1
  exact List.mem_flatMap.2 ⟨s, hmem, hc⟩

/-! ## Values -/

/-- **Have all characters of all values the property?** -/
def Store.Over (p : Char → Prop) (σ : Store) : Prop := ∀ name, Text.Over p (σ.get name)

/-- Another binding keeps the property if its value has it. -/
theorem Store.Over.bind {σ : Store} (hσ : σ.Over p) (name : Text) {value : Text}
    (h : Text.Over p value) : (σ.bind name value).Over p := by
  intro other
  by_cases hname : name = other
  · subst hname
    rwa [get_bind_self]
  · rw [get_bind_of_ne σ value hname]
    exact hσ other

/-- Expanding a text puts nothing but values into it. -/
theorem over_expand {σ : Store} (hσ : σ.Over p) {t : Text} (ht : Text.Over p t) :
    Text.Over p (expand σ t) := by
  fun_induction expand σ t with
  | case1 => exact ht
  | case2 c rest hreference ih =>
    have hrest := (Text.over_cons.1 ht).2
    have hafter := ih (hrest.of_subset (List.dropWhile_sublist isNameChar).subset)
    exact Text.over_append.2 ⟨hσ _, hafter⟩
  | case3 c rest hplain ih =>
    obtain ⟨hc, hrest⟩ := Text.over_cons.1 ht
    exact Text.over_cons.2 ⟨hc, ih hrest⟩

/-- **The value of a word consists of its characters and of those of the bindings.** -/
theorem Word.over_value {σ : Store} (hσ : σ.Over p) {w : Word} (hw : Word.Over p w) :
    Text.Over p (w.value σ) := by
  induction w with
  | nil => simp
  | cons part w ih =>
    obtain ⟨hpart, hw⟩ := Word.over_cons.1 hw
    refine Text.over_append.2 ⟨?_, ih hw⟩
    cases part with
    | bare t => exact over_expand hσ hpart
    | quoted q t =>
      cases q with
      | single => exact hpart
      | double => exact over_expand hσ hpart

/-! ## Plans -/

/-- **Have all characters of the name and the arguments of a stage the property?** -/
def Stage.Over (p : Char → Prop) (stage : Stage) : Prop := ∀ t ∈ stage.texts, Text.Over p t

/-- What is read of a group, and what it binds, consists of its characters and of those of the
bindings. -/
theorem over_readItems {is : List Item} (h : ∀ i ∈ is, Word.Over p i.content) {σ : Store}
    (hσ : σ.Over p) :
    (∀ t ∈ (readItems σ is).1, Text.Over p t) ∧ (readItems σ is).2.Over p := by
  induction is generalizing σ with
  | nil => exact ⟨by simp, hσ⟩
  | cons i is ih =>
    obtain ⟨hi, his⟩ := List.forall_mem_cons.1 h
    have hvalue := Word.over_value hσ hi
    cases i with
    | assign name value => exact ih his (hσ.bind name hvalue)
    | word w =>
      obtain ⟨htexts, hafter⟩ := ih his hσ
      exact ⟨List.forall_mem_cons.2 ⟨hvalue, htexts⟩, hafter⟩

/-- The same for all groups of a line. -/
theorem over_readGroups {gs : List (List Item)} (h : ∀ g ∈ gs, ∀ i ∈ g, Word.Over p i.content)
    {σ : Store} (hσ : σ.Over p) :
    (∀ stage ∈ (readGroups σ gs).stages, stage.Over p) ∧ (readGroups σ gs).store.Over p := by
  induction gs generalizing σ with
  | nil => exact ⟨by simp [readGroups], hσ⟩
  | cons g gs ih =>
    obtain ⟨hg, hgs⟩ := List.forall_mem_cons.1 h
    obtain ⟨htexts, hbetween⟩ := over_readItems hg hσ
    obtain ⟨hstages, hafter⟩ := ih hgs hbetween
    rw [readGroups_cons]
    refine ⟨List.forall_mem_append.2 ⟨fun stage hstage => ?_, hstages⟩, hafter⟩
    cases hread : (readItems σ g).1 with
    | nil => simp [hread, Stage.ofTexts?] at hstage
    | cons name args =>
      rw [hread] at hstage htexts
      rw [List.mem_singleton.1 hstage]
      exact htexts

/-- **The stages of a line, and the bindings that it leaves,** consist of characters of the line and of
the bindings before it. -/
theorem over_planLine {σ : Store} {line : Text} {plan : Plan} (hσ : σ.Over p)
    (hline : Text.Over p line) (h : planLine σ line = .ok plan) :
    (∀ stage ∈ plan.stages, stage.Over p) ∧ plan.store.Over p := by
  rw [planLine] at h
  cases hlex : lex line with
  | error reason =>
    rw [hlex] at h
    cases h
  | ok tokens =>
    rw [hlex] at h
    obtain rfl := eq_readGroups_of_plan h
    exact over_readGroups (over_of_lex hline hlex) hσ

/-! ## Sessions -/

/-- **A line keeps the characters of the bindings** to its own and to those that they have: the step. -/
theorem Session.over_afterLine {s : Session} {line : Text} (hs : s.store.Over p)
    (hline : Text.Over p line) : (s.afterLine line).store.Over p := by
  unfold afterLine
  cases hplan : planLine s.store line with
  | error reason => exact hs
  | ok plan => exact (over_planLine hs hline hplan).2

/-- **Lines keep the characters of the bindings** to their own and to those that they have: the run. -/
theorem Session.over_foldl_afterLine {s : Session} {lines : List Text} (hs : s.store.Over p)
    (hlines : ∀ line ∈ lines, Text.Over p line) : (lines.foldl afterLine s).store.Over p := by
  induction lines generalizing s with
  | nil => exact hs
  | cons line lines ih =>
    obtain ⟨hline, hlines⟩ := List.forall_mem_cons.1 hlines
    exact ih (over_afterLine hs hline) hlines

end PipeShell
