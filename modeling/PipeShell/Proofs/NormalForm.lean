import Mathlib.Data.List.Chain
import PipeShell.Pipeline
import PipeShell.Proofs.Lexing

/-! # What can be read

Not every list of tokens is read from a line: words are cut as far as possible, and assignments only
stand where they are marked as such.

* **`Word.IsNormal`** — the words that can be read: longest bare runs of ordinary characters, and
  quoted spans.
* **`NormalGroup`**, **`NormalTokens`** — the stages and lines that can be read: assignments come
  first, and the first word does not read as one.
* **`Word.ofSegments_segments`** — a normal word is the word of its segments.
* **`normalTokens_of_lex`** — reading yields normal tokens only. -/

namespace PipeShell

/-! ## Normal words -/

/-- A character that is part of a word wherever it stands. -/
def isOrdinary (c : Char) : Bool := !isWhiteSpace c && c != '|' && c != '\'' && c != '"'

/-- Is the part a run of characters outside quotes? -/
def Part.isBare : Part → Bool
  | .bare _ => true
  | .quoted _ _ => false

/-- Can the part be read? A bare run is not empty and ordinary throughout; a quoted text does not hold
the mark that would end it. -/
def Part.IsNormal : Part → Prop
  | .bare t => t ≠ [] ∧ ∀ c ∈ t, isOrdinary c = true
  | .quoted q t => q.mark ∉ t

/-- **The words that can be read.** -/
structure Word.IsNormal (w : Word) : Prop where
  ne_nil : w ≠ []
  parts : ∀ p ∈ w, p.IsNormal
  /-- No two bare runs are adjacent. -/
  separated : w.IsChain fun p r => ¬(p.isBare = true ∧ r.isBare = true)

/-- What may follow a bare run does not depend on its text. -/
theorem separated_bare {t u : Text} {w : Word}
    (h : (Part.bare t :: w).IsChain fun p r => ¬(p.isBare = true ∧ r.isBare = true)) :
    (Part.bare u :: w).IsChain fun p r => ¬(p.isBare = true ∧ r.isBare = true) := by
  cases w with
  | nil => exact .singleton _
  | cons r w =>
    obtain ⟨hr, hw⟩ := List.isChain_cons_cons.1 h
    exact List.isChain_cons_cons.2 ⟨hr, hw⟩

/-- A quoted span may stand before any part. -/
theorem separated_quoted (q : Quote) (t : Text) {w : Word}
    (h : w.IsChain fun p r => ¬(p.isBare = true ∧ r.isBare = true)) :
    (Part.quoted q t :: w).IsChain fun p r => ¬(p.isBare = true ∧ r.isBare = true) := by
  cases w with
  | nil => exact .singleton _
  | cons r w => exact List.isChain_cons_cons.2 ⟨by simp [Part.isBare], h⟩

/-- A bare run may stand before whatever does not begin with one. -/
theorem separated_bare_of_ne (t : Text) {w : Word} (hne : ∀ u v, w ≠ .bare u :: v)
    (h : w.IsChain fun p r => ¬(p.isBare = true ∧ r.isBare = true)) :
    (Part.bare t :: w).IsChain fun p r => ¬(p.isBare = true ∧ r.isBare = true) := by
  cases w with
  | nil => exact .singleton _
  | cons r w =>
    cases r with
    | bare u => exact absurd rfl (hne u w)
    | quoted q u => exact List.isChain_cons_cons.2 ⟨by simp [Part.isBare], h⟩

/-- The characters that can stand outside quotes within a word are the ordinary ones. -/
theorem isOrdinary_iff {c : Char} :
    isOrdinary c = true ↔ (Segment.plain c).WellFormed ∧ (Segment.plain c).isBlank = false ∧
      (Segment.plain c).isPipe = false := by
  have hmark : (∀ q : Quote, c ≠ q.mark) ↔ c ≠ '\'' ∧ c ≠ '"' :=
    ⟨fun h => ⟨h .single, h .double⟩, fun h q => by cases q <;> simp [Quote.mark, h]⟩
  simp only [isOrdinary, Segment.WellFormed, Segment.isBlank, Segment.isPipe, hmark,
    Bool.and_eq_true, Bool.not_eq_true', bne_iff_ne, beq_eq_false_iff_ne]
  tauto

/-! ## The segments of a word -/

/-- The segments that spell a part. -/
def Part.segments : Part → List Segment
  | .bare t => t.map .plain
  | .quoted q t => [.span q t]

/-- The segments that spell a word. -/
def Word.segments (w : Word) : List Segment := w.flatMap Part.segments

/-- The segments of a normal part are well formed and inside one word. -/
theorem Part.IsNormal.segments {p : Part} (h : p.IsNormal) :
    (∀ s ∈ p.segments, s.WellFormed) ∧ WithinWord p.segments := by
  cases p with
  | bare t =>
    have hord : ∀ c ∈ t, _ := fun c hc => isOrdinary_iff.1 (h.2 c hc)
    constructor
    · intro s hs
      obtain ⟨c, hc, rfl⟩ := List.mem_map.1 hs
      exact (hord c hc).1
    · intro s hs
      obtain ⟨c, hc, rfl⟩ := List.mem_map.1 hs
      exact (hord c hc).2
  | quoted q t =>
    constructor
    · intro s hs
      rw [List.mem_singleton.1 hs]
      exact h
    · intro s hs
      rw [List.mem_singleton.1 hs]
      exact ⟨rfl, rfl⟩

/-- The segments of a normal word are well formed and inside one word. -/
theorem Word.IsNormal.segments {w : Word} (h : w.IsNormal) :
    (∀ s ∈ w.segments, s.WellFormed) ∧ WithinWord w.segments := by
  constructor
  · intro s hs
    obtain ⟨p, hp, hs⟩ := List.mem_flatMap.1 hs
    exact (h.parts p hp).segments.1 s hs
  · intro s hs
    obtain ⟨p, hp, hs⟩ := List.mem_flatMap.1 hs
    exact (h.parts p hp).segments.2 s hs

/-- **A normal word is the word of its segments.** -/
theorem Word.ofSegments_segments {w : Word} (hparts : ∀ p ∈ w, p.IsNormal)
    (hsep : w.IsChain fun p r => ¬(p.isBare = true ∧ r.isBare = true)) :
    ofSegments w.segments = w := by
  induction w with
  | nil => rfl
  | cons p w ih =>
    obtain ⟨hp, hw⟩ := List.forall_mem_cons.1 hparts
    have hrest := ih hw hsep.tail
    cases p with
    | quoted q t => exact congrArg (Part.quoted q t :: ·) hrest
    | bare t =>
      -- nothing after the run continues it
      have hnext : ∀ u v, ofSegments (Word.segments w) ≠ .bare u :: v := by
        intro u v huv
        rw [hrest] at huv
        subst huv
        exact (List.isChain_cons_cons.1 hsep).1 ⟨rfl, rfl⟩
      change ofSegments (t.map .plain ++ Word.segments w) = _
      rw [ofSegments_plain_append t _ hnext, hrest]
      cases t with
      | nil => exact absurd rfl hp.1
      | cons c t => rfl

/-- **The word of segments inside one word is normal.** -/
theorem Word.isNormal_ofSegments {ss : List Segment} (hne : ss ≠ [])
    (hss : ∀ s ∈ ss, s.WellFormed) (hin : WithinWord ss) : (ofSegments ss).IsNormal := by
  -- the rest of the segments may be empty, so the induction is only on the other two fields
  suffices h : (∀ p ∈ ofSegments ss, p.IsNormal) ∧
      (ofSegments ss).IsChain fun p r => ¬(p.isBare = true ∧ r.isBare = true) from
    ⟨mt ofSegments_eq_nil_iff.1 hne, h.1, h.2⟩
  clear hne
  induction ss with
  | nil => simp
  | cons s ss ih =>
    obtain ⟨hs, hss⟩ := List.forall_mem_cons.1 hss
    obtain ⟨hs', hin⟩ := List.forall_mem_cons.1 hin
    obtain ⟨hparts, hsep⟩ := ih hss hin
    cases s with
    | span q t =>
      rw [ofSegments_span]
      exact ⟨List.forall_mem_cons.2 ⟨hs, hparts⟩, separated_quoted q t hsep⟩
    | plain c =>
      have hc : isOrdinary c = true := isOrdinary_iff.2 ⟨hs, hs'⟩
      rw [ofSegments]
      split
      -- the character joins the run after it, or is a run of its own
      next t w hw =>
        rw [hw] at hparts hsep
        obtain ⟨ht, hparts⟩ := List.forall_mem_cons.1 hparts
        have hrun : (Part.bare (c :: t)).IsNormal :=
          ⟨by simp, List.forall_mem_cons.2 ⟨hc, ht.2⟩⟩
        exact ⟨List.forall_mem_cons.2 ⟨hrun, hparts⟩, separated_bare hsep⟩
      next hw =>
        have hrun : (Part.bare [c]).IsNormal := ⟨by simp, by simpa using hc⟩
        exact ⟨List.forall_mem_cons.2 ⟨hrun, hparts⟩, separated_bare_of_ne [c] hw hsep⟩

/-! ## Normal tokens -/

/-- **The stages that can be read.** -/
structure NormalGroup (is : List Item) : Prop where
  word : ∀ w, .word w ∈ is → w.IsNormal
  name : ∀ name value, .assign name value ∈ is → isName name = true
  value : ∀ name value, .assign name value ∈ is → value.IsNormal
  /-- Only assignments precede an assignment. -/
  order : is.Pairwise fun i j => i.isWord = true → j.isWord = true
  /-- The first word does not read as an assignment. -/
  command : ∀ w, is.find? Item.isWord = some (.word w) → w.assignment? = none

/-- **The lines that can be read**: those whose stages can be read. -/
def NormalTokens (tokens : List Token) : Prop := ∀ g ∈ groups tokens, NormalGroup g

theorem normalGroup_nil : NormalGroup [] := by
  constructor <;> simp

/-- An assignment can be put before any stage. -/
theorem normalGroup_assign {name : Text} {value : Word} {is : List Item} :
    NormalGroup (.assign name value :: is) ↔
      isName name = true ∧ value.IsNormal ∧ NormalGroup is := by
  constructor
  · intro h
    refine ⟨h.name name value List.mem_cons_self, h.value name value List.mem_cons_self, ?_⟩
    exact ⟨fun w hw => h.word w (List.mem_cons_of_mem _ hw),
      fun n v hv => h.name n v (List.mem_cons_of_mem _ hv),
      fun n v hv => h.value n v (List.mem_cons_of_mem _ hv), (List.pairwise_cons.1 h.order).2,
      fun w hw => h.command w (by simpa [Item.isWord] using hw)⟩
  · rintro ⟨hname, hvalue, h⟩
    refine ⟨?_, ?_, ?_, ?_, ?_⟩
    · intro w hw
      exact h.word w (by simpa using hw)
    · intro n v hv
      rcases List.mem_cons.1 hv with hv | hv
      · obtain ⟨rfl, rfl⟩ := Item.assign.inj hv
        exact hname
      · exact h.name n v hv
    · intro n v hv
      rcases List.mem_cons.1 hv with hv | hv
      · obtain ⟨rfl, rfl⟩ := Item.assign.inj hv
        exact hvalue
      · exact h.value n v hv
    · exact List.pairwise_cons.2 ⟨by simp [Item.isWord], h.order⟩
    · intro w hw
      exact h.command w (by simpa [Item.isWord] using hw)

/-- After the first word of a stage there are only words. -/
theorem normalGroup_word {w : Word} {is : List Item} :
    NormalGroup (.word w :: is) ↔ w.IsNormal ∧ w.assignment? = none ∧
      ∀ i ∈ is, ∃ v : Word, v.IsNormal ∧ i = .word v := by
  constructor
  · intro h
    refine ⟨h.word w List.mem_cons_self, h.command w (by simp [Item.isWord]), ?_⟩
    intro i hi
    have hword := (List.pairwise_cons.1 h.order).1 i hi rfl
    cases i with
    | word v => exact ⟨v, h.word v (List.mem_cons_of_mem _ hi), rfl⟩
    | assign name value => simp [Item.isWord] at hword
  · rintro ⟨hw, hnone, his⟩
    have hassign : ∀ name value, Item.assign name value ∉ Item.word w :: is := by
      intro name value hv
      rcases List.mem_cons.1 hv with hv | hv
      · cases hv
      · obtain ⟨v, -, hv⟩ := his _ hv
        cases hv
    refine ⟨?_, fun n v hv => absurd hv (hassign n v), fun n v hv => absurd hv (hassign n v), ?_, ?_⟩
    · intro v hv
      rcases List.mem_cons.1 hv with hv | hv
      · exact Item.word.inj hv ▸ hw
      · obtain ⟨u, hu, huv⟩ := his _ hv
        exact Item.word.inj huv ▸ hu
    · have hwords : ∀ i ∈ is, i.isWord = true := by
        intro i hi
        obtain ⟨v, -, rfl⟩ := his i hi
        rfl
      exact List.pairwise_cons.2 ⟨fun i hi _ => hwords i hi,
        List.pairwise_of_forall_mem_list fun i hi j hj _ => hwords j hj⟩
    · intro v hv
      obtain rfl : w = v := by simpa [Item.isWord] using hv
      exact hnone

/-! ## What is read is normal -/

/-- The words of a stage are normal. -/
theorem Word.isNormal_of_mem_wordsOf {ss g : List Segment} (hss : ∀ s ∈ ss, s.WellFormed)
    (hg : g ∈ ss.splitOnP Segment.isPipe) {w : Word} (hw : w ∈ wordsOf g) : w.IsNormal := by
  obtain ⟨run, hrun, rfl⟩ := List.mem_map.1 hw
  obtain ⟨hrun, hne⟩ := List.mem_filter.1 hrun
  refine isNormal_ofSegments (by simpa using hne) ?_ ?_
  · intro s hs
    exact hss s (of_mem_splitOnP hg (of_mem_splitOnP hrun hs).1).1
  · intro s hs
    exact ⟨(of_mem_splitOnP hrun hs).2, (of_mem_splitOnP hg (of_mem_splitOnP hrun hs).1).2⟩

/-- The value of a normal word that reads as an assignment is normal. -/
theorem Word.IsNormal.of_assignment? {w value : Word} {name : Text} (hw : w.IsNormal)
    (h : w.assignment? = some (name, value)) : value.IsNormal := by
  obtain ⟨-, text, rest, rfl, hne, rfl⟩ := Word.assignment?_eq_some_iff.1 h
  obtain ⟨hfirst, hrest⟩ := List.forall_mem_cons.1 hw.parts
  cases text with
  | nil => exact ⟨by simpa using hne, hrest, hw.separated.tail⟩
  | cons c text =>
    -- the value begins with what is left of the run after the `=`
    have hrun : (Part.bare (c :: text)).IsNormal := by
      refine ⟨by simp, ?_⟩
      intro d hd
      exact hfirst.2 d (List.mem_append_right _ (List.mem_cons_of_mem _ hd))
    exact ⟨by simp, List.forall_mem_cons.2 ⟨hrun, hrest⟩, separated_bare hw.separated⟩

/-- A word that reads as an assignment is one at the start of a stage. -/
theorem itemsOf_cons_of_eq_some {w value : Word} {name : Text}
    (h : w.assignment? = some (name, value)) (ws : List Word) :
    itemsOf (w :: ws) = .assign name value :: itemsOf ws := by
  simp [itemsOf, h, Item.ofWord]

/-- From the first word that does not read as an assignment on, there are only words. -/
theorem itemsOf_cons_of_eq_none {w : Word} (h : w.assignment? = none) (ws : List Word) :
    itemsOf (w :: ws) = .word w :: ws.map .word := by
  simp [itemsOf, h]

/-- The items of normal words are a normal stage. -/
theorem normalGroup_itemsOf {ws : List Word} (h : ∀ w ∈ ws, w.IsNormal) :
    NormalGroup (itemsOf ws) := by
  induction ws with
  | nil => exact normalGroup_nil
  | cons w ws ih =>
    obtain ⟨hw, hws⟩ := List.forall_mem_cons.1 h
    cases hassign : w.assignment? with
    | none =>
      rw [itemsOf_cons_of_eq_none hassign, normalGroup_word]
      refine ⟨hw, hassign, ?_⟩
      intro i hi
      obtain ⟨v, hv, rfl⟩ := List.mem_map.1 hi
      exact ⟨v, hws v hv, rfl⟩
    | some a =>
      rw [itemsOf_cons_of_eq_some hassign, normalGroup_assign]
      exact ⟨Word.isName_of_assignment? hassign, hw.of_assignment? hassign, ih hws⟩

/-- The items of a stage, before whatever ends it, are its group. -/
theorem groups_items_append_pipe (is : List Item) (ts : List Token) :
    groups (is.map .item ++ .pipe :: ts) = is :: groups ts := by
  induction is with
  | nil => rfl
  | cons i is ih => rw [List.map_cons, List.cons_append, groups, ih]

/-- Items that no pipe operator ends are one group. -/
theorem groups_items (is : List Item) : groups (is.map .item) = [is] := by
  induction is with
  | nil => rfl
  | cons i is ih => rw [List.map_cons, groups, ih]

/-- Stages joined by pipe operators are its groups. -/
theorem groups_intercalate (gs : List (List Item)) (h : gs ≠ []) :
    groups ([Token.pipe].intercalate (gs.map (·.map .item))) = gs := by
  induction gs with
  | nil => exact absurd rfl h
  | cons g gs ih =>
    cases gs with
    | nil => simpa using groups_items g
    | cons g' gs =>
      have hrest := ih (by simp)
      rw [List.map_cons] at hrest
      rw [List.map_cons, List.map_cons, List.intercalate_cons_cons, List.append_assoc,
        List.singleton_append, groups_items_append_pipe, hrest]

/-- The groups of the tokens of segments are the items of their stages. -/
theorem groups_tokensOf (ss : List Segment) :
    groups (tokensOf ss) = (ss.splitOnP Segment.isPipe).map fun g => itemsOf (wordsOf g) := by
  have hgroups := groups_intercalate
    ((ss.splitOnP Segment.isPipe).map fun g => itemsOf (wordsOf g)) (by simp)
  rw [List.map_map] at hgroups
  exact hgroups

/-- **What is read is normal.** -/
theorem normalTokens_of_lex {line : Text} {tokens : List Token} (h : lex line = .ok tokens) :
    NormalTokens tokens := by
  obtain ⟨⟨ss, hss, hline⟩, rfl⟩ := exists_segmentation_of_lex h
  intro g hg
  rw [groups_tokensOf] at hg
  obtain ⟨stage, hstage, rfl⟩ := List.mem_map.1 hg
  exact normalGroup_itemsOf fun w hw => Word.isNormal_of_mem_wordsOf hss hstage hw

end PipeShell
