import Mathlib
import PipeShell.Proofs.NormalForm

/-! # Printing tokens

Tokens are printed with their quotes and one space between them. What can be read is exactly what
survives printing and reading back.

* **`lineOf`** — the text of a list of tokens.
* **`Item.source`** — the word that an item is read from.
* **`lex_lineOf`** — printed normal tokens are read back. -/

namespace PipeShell

/-! ## Printing -/

/-- A part with its quotation marks. -/
def Part.printed : Part → Text
  | .bare t => t
  | .quoted q t => q.mark :: (t ++ [q.mark])

/-- A word, its parts one after the other. -/
def Word.printed (w : Word) : Text := w.flatMap Part.printed

/-- A token. -/
def Token.printed : Token → Text
  | .item (.word w) => w.printed
  | .item (.assign name value) => name ++ '=' :: value.printed
  | .pipe => ['|']

/-- **The text of tokens**, with one space between them. -/
def lineOf (tokens : List Token) : Text := [' '].intercalate (tokens.map Token.printed)

/-- The printed form of a word is what its segments spell. -/
theorem Word.spelled_segments (w : Word) : spelled w.segments = w.printed := by
  induction w with
  | nil => rfl
  | cons p w ih =>
    change spelled (p.segments ++ Word.segments w) = p.printed ++ Word.printed w
    rw [← ih, spelled, List.flatMap_append]
    cases p with
    | bare t => exact congrArg (· ++ _) (spelled_map_plain t)
    | quoted q t => simp [Part.segments, Part.printed, Segment.text, spelled]

/-- The word that an assignment is read from: the name and the `=` belong to the first run. -/
def Word.assigning (name : Text) : Word → Word
  | .bare t :: w => .bare (name ++ '=' :: t) :: w
  | w => .bare (name ++ ['=']) :: w

/-- The code points of the characters of identifiers. -/
theorem toNat_of_isNameChar {c : Char} (h : isNameChar c = true) :
    (65 ≤ c.toNat ∧ c.toNat ≤ 90 ∨ 97 ≤ c.toNat ∧ c.toNat ≤ 122) ∨
      (48 ≤ c.toNat ∧ c.toNat ≤ 57) ∨ c.toNat = 95 := by
  simp only [isNameChar, Char.isAlphanum, Char.isAlpha, Char.isUpper, Char.isLower, Char.isDigit,
    Bool.or_eq_true, Bool.and_eq_true, decide_eq_true_eq, beq_iff_eq, UInt32.le_iff_toNat_le] at h
  change ((65 ≤ c.toNat ∧ c.toNat ≤ 90 ∨ 97 ≤ c.toNat ∧ c.toNat ≤ 122) ∨
    48 ≤ c.toNat ∧ c.toNat ≤ 57) ∨ c = '_' at h
  rcases h with (h | h) | rfl
  · exact .inl h
  · exact .inr (.inl h)
  · exact .inr (.inr rfl)

/-- A character of an identifier is ordinary. -/
theorem isOrdinary_of_isNameChar {c : Char} (h : isNameChar c = true) : isOrdinary c = true := by
  have hrange := toNat_of_isNameChar h
  have hblank : isWhiteSpace c = false := by
    rw [Bool.eq_false_iff]
    intro hc
    obtain ⟨r, hr, hlo, hhi⟩ := (CodeRanges.contains_iff _ c).1 hc
    -- no range of white space meets the letters, the digits or the underscore
    simp only [whiteSpaceRanges, List.mem_cons, List.not_mem_nil, or_false] at hr
    rcases hr with rfl | rfl | rfl | rfl | rfl | rfl | rfl | rfl | rfl | rfl <;>
      simp only at hlo hhi <;> omega
  have hne : ∀ d : Char, isNameChar d = false → c ≠ d := by
    rintro d hd rfl
    rw [h] at hd
    cases hd
  simp [isOrdinary, hblank, hne '|' rfl, hne '\'' rfl, hne '"' rfl]

/-- The word of a normal assignment is normal. -/
theorem Word.isNormal_assigning {name : Text} {value : Word} (hname : isName name = true)
    (h : value.IsNormal) : (Word.assigning name value).IsNormal := by
  have hrun : ∀ t : Text, (∀ c ∈ t, isOrdinary c = true) →
      (Part.bare (name ++ '=' :: t)).IsNormal := by
    intro t ht
    refine ⟨by simp, ?_⟩
    intro c hc
    rcases List.mem_append.1 hc with hc | hc
    · exact isOrdinary_of_isNameChar (isNameChar_of_mem hname hc)
    · rcases List.mem_cons.1 hc with rfl | hc
      · decide
      · exact ht c hc
  cases value with
  | nil => exact absurd rfl h.ne_nil
  | cons p w =>
    obtain ⟨hp, hw⟩ := List.forall_mem_cons.1 h.parts
    cases p with
    -- the name and the `=` join the run that begins the value, if there is one
    | bare t =>
      exact ⟨by simp [assigning], List.forall_mem_cons.2 ⟨hrun t hp.2, hw⟩,
        separated_bare h.separated⟩
    | quoted q t =>
      exact ⟨by simp [assigning], List.forall_mem_cons.2 ⟨hrun [] (by simp), h.parts⟩,
        separated_bare_of_ne _ (by simp) h.separated⟩

/-- The word of a normal assignment reads as that assignment. -/
theorem Word.assignment?_assigning {name : Text} {value : Word} (hname : isName name = true)
    (h : value.IsNormal) : (Word.assigning name value).assignment? = some (name, value) := by
  rw [Word.assignment?_eq_some_iff]
  refine ⟨hname, ?_⟩
  cases value with
  | nil => exact absurd rfl h.ne_nil
  | cons p w =>
    cases p with
    | quoted q t => exact ⟨[], .quoted q t :: w, rfl, .inr (by simp), rfl⟩
    | bare t =>
      have ht := (h.parts _ List.mem_cons_self).1
      refine ⟨t, w, rfl, .inl ht, ?_⟩
      cases t with
      | nil => exact absurd rfl ht
      | cons c t => rfl

/-- The word of an assignment is printed as the assignment is. -/
theorem Word.printed_assigning (name : Text) (value : Word) :
    (Word.assigning name value).printed = name ++ '=' :: value.printed := by
  unfold assigning
  split <;> simp [printed, Part.printed]

/-! ## Reading what has been printed -/

/-- The word that an item is read from. -/
def Item.source : Item → Word
  | .word w => w
  | .assign name value => .assigning name value

/-- The lexeme that a token is read from. -/
def Token.lexeme : Token → Lexeme
  | .item i => .word i.source
  | .pipe => .pipe

/-- **A printed word is read back**, whatever ends it. -/
theorem scan_printed_word {w : Word} (hw : w.IsNormal) {rest : Text}
    {after : Except Rejection (List Lexeme)} (hrest : EndsWord rest after) :
    scan none {} (w.printed ++ rest) = after.map (.word w :: ·) := by
  obtain ⟨hwf, hin⟩ := hw.segments
  have hword := Word.ofSegments_segments hw.parts hw.separated
  have hne : w.segments ≠ [] := by
    intro hnil
    rw [hnil] at hword
    exact hw.ne_nil hword.symm
  have hscan := scan_spelled hwf hrest
  rw [lexemesOf_withinWord hin, wordsOf_withinWord hin, if_neg hne, hword,
    Word.spelled_segments] at hscan
  exact hscan

/-- The items of the words that a normal stage is read from are those of the stage. -/
theorem itemsOf_source {is : List Item} (h : NormalGroup is) :
    itemsOf (is.map Item.source) = is := by
  induction is with
  | nil => rfl
  | cons i is ih =>
    cases i with
    | assign name value =>
      obtain ⟨hname, hvalue, his⟩ := normalGroup_assign.1 h
      rw [List.map_cons, Item.source,
        itemsOf_cons_of_eq_some (Word.assignment?_assigning hname hvalue), ih his]
    | word w =>
      obtain ⟨-, hnone, his⟩ := normalGroup_word.1 h
      rw [List.map_cons, Item.source, itemsOf_cons_of_eq_none hnone, List.map_map]
      have hsource : ∀ i ∈ is, (Item.word ∘ Item.source) i = id i := by
        intro i hi
        obtain ⟨v, -, rfl⟩ := his i hi
        rfl
      rw [List.map_congr_left hsource, List.map_id]

/-- Every item of a line is in one of its groups. -/
theorem exists_group_of_mem {i : Item} {ts : List Token} (h : .item i ∈ ts) :
    ∃ g ∈ groups ts, i ∈ g := by
  induction ts with
  | nil => simp at h
  | cons t ts ih =>
    cases t with
    | pipe =>
      obtain ⟨g, hg, hi⟩ := ih (by simpa using h)
      exact ⟨g, List.mem_cons_of_mem _ hg, hi⟩
    | item j =>
      obtain ⟨g, gs, hgs⟩ := List.exists_cons_of_ne_nil (groups_ne_nil ts)
      rw [groups, hgs]
      rcases List.mem_cons.1 h with h | h
      · exact ⟨j :: g, List.mem_cons_self, Token.item.inj h ▸ List.mem_cons_self⟩
      · obtain ⟨g', hg', hi⟩ := ih h
        rw [hgs] at hg'
        rcases List.mem_cons.1 hg' with rfl | hg'
        · exact ⟨j :: g', List.mem_cons_self, List.mem_cons_of_mem _ hi⟩
        · exact ⟨g', List.mem_cons_of_mem _ hg', hi⟩

/-- The words that a normal stage is read from are normal. -/
theorem NormalGroup.isNormal_source {is : List Item} (h : NormalGroup is) {i : Item} (hi : i ∈ is) :
    i.source.IsNormal := by
  cases i with
  | word w => exact h.word w hi
  | assign name value => exact Word.isNormal_assigning (h.name _ _ hi) (h.value _ _ hi)

/-- A line is its groups joined by pipe operators, also after a change of the tokens. -/
theorem map_eq_intercalate_groups {α : Type} (f : Token → α) (ts : List Token) :
    ts.map f = [f .pipe].intercalate ((groups ts).map (·.map fun i => f (.item i))) := by
  induction ts with
  | nil => rfl
  | cons t ts ih =>
    obtain ⟨g, gs, hgs⟩ := List.exists_cons_of_ne_nil (groups_ne_nil ts)
    cases t with
    | pipe =>
      rw [List.map_cons, groups_pipe, List.map_cons, List.map_nil,
        List.intercalate_cons_of_ne_nil (by simp [hgs]), ← ih]
      rfl
    | item i =>
      rw [List.map_cons, ih, groups, hgs]
      simp

/-- **A printed token is read back**, whatever ends it. -/
theorem scan_printed_token {t : Token} (ht : ∀ i, t = .item i → i.source.IsNormal) {rest : Text}
    {after : Except Rejection (List Lexeme)} (hrest : EndsWord rest after) :
    scan none {} (t.printed ++ rest) = after.map (t.lexeme :: ·) := by
  cases t with
  | pipe =>
    rw [Token.printed, List.singleton_append, endsWord_pipe rest, hrest]
    cases after <;> rfl
  | item i =>
    have hword := scan_printed_word (ht i rfl) hrest
    cases i with
    | word w => exact hword
    | assign name value =>
      rw [Item.source, Word.printed_assigning] at hword
      exact hword

/-- The lexemes of printed tokens are those that the tokens are read from. -/
theorem scan_lineOf {ts : List Token} (h : ∀ i, .item i ∈ ts → i.source.IsNormal) :
    scan none {} (lineOf ts) = .ok (ts.map Token.lexeme) := by
  induction ts with
  | nil => rfl
  | cons t ts ih =>
    have ht : ∀ i, t = .item i → i.source.IsNormal := by
      rintro i rfl
      exact h i List.mem_cons_self
    have hrest := ih fun i hi => h i (List.mem_cons_of_mem t hi)
    cases ts with
    | nil =>
      have hlast := scan_printed_token ht endsWord_nil
      rw [List.append_nil] at hlast
      rw [lineOf, List.map_singleton, List.intercalate_singleton, hlast]
      rfl
    | cons u ts =>
      -- the space ends the first token, and the rest is read as a line of its own
      rw [lineOf, List.map_cons, List.map_cons, List.intercalate_cons_cons, List.append_assoc,
        ← List.map_cons]
      change scan none {} (t.printed ++ ' ' :: lineOf (u :: ts)) = _
      rw [scan_printed_token ht (endsWord_blank (by decide) _), hrest]
      rfl

/-- **Printed normal tokens are read back.** -/
theorem lex_lineOf {ts : List Token} (h : NormalTokens ts) : lex (lineOf ts) = .ok ts := by
  have hnormal : ∀ i, .item i ∈ ts → i.source.IsNormal := by
    intro i hi
    obtain ⟨g, hg, hi⟩ := exists_group_of_mem hi
    exact (h g hg).isNormal_source hi
  rw [lex, scan_lineOf hnormal, Except.map]
  congr 1
  -- the lexemes are cut into groups, and the assignments of each are told from its words again
  calc tokensFrom true (ts.map Token.lexeme)
      = tokensFrom true ([Lexeme.pipe].intercalate
          (((groups ts).map (·.map Item.source)).map (·.map .word))) := by
        rw [map_eq_intercalate_groups, List.map_map]
        simp [Token.lexeme, Function.comp_def]
    _ = [Token.pipe].intercalate
          (((groups ts).map (·.map Item.source)).map fun ws => (itemsOf ws).map .item) :=
        tokensFrom_intercalate _
    _ = [Token.pipe].intercalate ((groups ts).map (·.map .item)) := by
        rw [List.map_map]
        congr 1
        refine List.map_congr_left fun g hg => ?_
        rw [Function.comp_apply, itemsOf_source (h g hg)]
    _ = ts := by
        have hgroups := map_eq_intercalate_groups id ts
        rw [List.map_id] at hgroups
        exact hgroups.symm

/-- **Reading and printing are inverse on exactly what can be read.** The normal lists of tokens are
those that some line is read as, and each of them is read back from its printed form. -/
theorem normalTokens_iff_lex (ts : List Token) :
    ((∃ line, lex line = .ok ts) ↔ NormalTokens ts) ∧
      (NormalTokens ts ↔ lex (lineOf ts) = .ok ts) := by
  refine ⟨⟨?_, fun h => ⟨lineOf ts, lex_lineOf h⟩⟩, lex_lineOf, normalTokens_of_lex⟩
  rintro ⟨line, h⟩
  exact normalTokens_of_lex h

end PipeShell
