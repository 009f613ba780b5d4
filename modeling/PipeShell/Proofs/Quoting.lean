import PipeShell.Proofs.Planning
import PipeShell.Proofs.Printing

/-! # Quoting a whole command line

Any text can be written so that the shell reads it as it is, and any pipeline can be written as a line.

* **`quoted v`** — the text `v` in quotes: single ones, except around the `'` it may hold.
* **`quotedLine stages`** — the line that calls the given stages.
* **`value_quotedWord`** — the word of a quoted text stands for the text in every store.
* **`plan_quotedLine`** — such a line plans exactly its stages and binds nothing. -/

namespace PipeShell

/-! ## Quoted texts -/

/-- **A text in quotes**: the pieces between the `'` characters in single quotes, and each `'` in
double quotes. -/
def quoted (v : Text) : Text :=
  ['"', '\'', '"'].intercalate ((v.splitOn '\'').map fun piece => '\'' :: (piece ++ ['\'']))

/-- The word of a text in quotes. -/
def quotedWord (v : Text) : Word :=
  [Part.quoted .double ['\'']].intercalate
    ((v.splitOn '\'').map fun piece => [.quoted .single piece])

/-- The word of a quoted text is printed as the quoted text. -/
theorem printed_quotedWord (v : Text) : (quotedWord v).printed = quoted v := by
  rw [Word.printed, quotedWord, flatMap_intercalate, List.map_map, quoted]
  congr 1
  exact List.map_congr_left fun piece _ => List.append_nil _

/-- **A quoted text stands for itself**, whatever the variables are. -/
theorem value_quotedWord (σ : Store) (v : Text) : (quotedWord v).value σ = v := by
  have hpieces : ((v.splitOn '\'').map fun piece => [Part.quoted .single piece]).map
      (·.flatMap (Part.value σ)) = v.splitOn '\'' := by
    rw [List.map_map]
    refine (List.map_congr_left fun piece _ => ?_).trans (List.map_id _)
    exact List.append_nil piece
  have hmark : [Part.quoted .double ['\'']].flatMap (Part.value σ) = ['\''] := by
    rw [List.flatMap_cons, List.flatMap_nil, List.append_nil, Part.value,
      expand_of_not_mem σ (by decide)]
  rw [Word.value, quotedWord, flatMap_intercalate, hpieces, hmark, List.intercalate_splitOn]

/-- The word of a quoted text begins with a quoted part. -/
theorem exists_quotedWord_eq (v : Text) :
    ∃ (piece : Text) (w : Word), quotedWord v = .quoted .single piece :: w := by
  obtain ⟨piece, pieces, hv⟩ := List.exists_cons_of_ne_nil (List.splitOn_ne_nil '\'' v)
  rw [quotedWord, hv, List.map_cons, List.intercalate_cons_cons_left]
  exact ⟨piece, _, rfl⟩

/-- A quoted text does not read as an assignment. -/
theorem assignment?_quotedWord (v : Text) : (quotedWord v).assignment? = none := by
  obtain ⟨piece, w, hw⟩ := exists_quotedWord_eq v
  rw [hw, Word.assignment?_quoted]

/-- The word of a quoted text can be read. -/
theorem isNormal_quotedWord (v : Text) : (quotedWord v).IsNormal := by
  have hparts : ∀ p ∈ quotedWord v, p.IsNormal ∧ p.isBare = false := by
    intro p hp
    rcases of_mem_intercalate hp with hp | ⟨l, hl, hp⟩
    · rw [List.mem_singleton.1 hp]
      exact ⟨show Quote.double.mark ∉ ['\''] by decide, rfl⟩
    · obtain ⟨piece, hpiece, rfl⟩ := List.mem_map.1 hl
      rw [List.mem_singleton.1 hp]
      -- a piece stands between the marks, so it holds none
      refine ⟨fun hmark => ?_, rfl⟩
      simpa [Quote.mark] using (of_mem_splitOnP hpiece hmark).2
  refine ⟨?_, fun p hp => (hparts p hp).1, ?_⟩
  · obtain ⟨piece, w, hw⟩ := exists_quotedWord_eq v
    simp [hw]
  -- there is no bare run at all, so no two are adjacent
  · exact (List.pairwise_of_forall_mem_list fun p hp r _ => by simp [hparts p hp]).isChain

/-! ## Quoted lines -/

/-- A stage with its name and its arguments in quotes. -/
def Stage.quoted (s : Stage) : Text :=
  PipeShell.quoted s.name ++ s.args.flatMap fun a => ' ' :: PipeShell.quoted a

/-- **The line that calls stages.** -/
def quotedLine (stages : List Stage) : Text := [' ', '|', ' '].intercalate (stages.map Stage.quoted)

/-- The items of a quoted stage. -/
def Stage.items (s : Stage) : List Item := s.texts.map fun v => .word (quotedWord v)

/-- The tokens of a quoted line. -/
def quotedTokens (stages : List Stage) : List Token :=
  [Token.pipe].intercalate (stages.map fun s => s.items.map .item)

/-- The items of a quoted stage can be read. -/
theorem normalGroup_items (s : Stage) : NormalGroup s.items := by
  rw [Stage.items, Stage.texts, List.map_cons, normalGroup_word]
  refine ⟨isNormal_quotedWord s.name, assignment?_quotedWord s.name, ?_⟩
  intro i hi
  obtain ⟨v, -, rfl⟩ := List.mem_map.1 hi
  exact ⟨quotedWord v, isNormal_quotedWord v, rfl⟩

/-- The groups of a quoted line are its stages. -/
theorem groups_quotedTokens {stages : List Stage} (h : stages ≠ []) :
    groups (quotedTokens stages) = stages.map Stage.items := by
  have hgroups := groups_intercalate (stages.map Stage.items) (by simpa using h)
  rw [List.map_map] at hgroups
  exact hgroups

/-- The tokens of a quoted line can be read. -/
theorem normalTokens_quotedTokens (stages : List Stage) : NormalTokens (quotedTokens stages) := by
  intro g hg
  cases stages with
  | nil =>
    obtain rfl : g = [] := by simpa [quotedTokens] using hg
    exact normalGroup_nil
  | cons s stages =>
    rw [groups_quotedTokens (by simp)] at hg
    obtain ⟨s, -, rfl⟩ := List.mem_map.1 hg
    exact normalGroup_items s

/-- A space stands before every token but the first. -/
theorem lineOf_cons (t : Token) (ts : List Token) :
    lineOf (t :: ts) = t.printed ++ ts.flatMap fun u => ' ' :: u.printed := by
  rw [lineOf, List.map_cons, intercalate_cons, List.flatMap_map]
  rfl

/-- A quoted stage is printed with a space before each argument. -/
theorem lineOf_items (s : Stage) : lineOf (s.items.map .item) = s.quoted := by
  have hprint : ∀ v, (Token.word (quotedWord v)).printed = quoted v := printed_quotedWord
  simp only [Stage.items, Stage.texts, List.map_cons, lineOf_cons, List.flatMap_map, hprint]
  rfl

/-- A quoted stage is printed after the pipe operator that begins it. -/
theorem flatMap_pipe_items (s : Stage) :
    (Token.pipe :: s.items.map .item).flatMap (fun t => ' ' :: t.printed)
      = [' ', '|', ' '] ++ s.quoted := by
  rw [← lineOf_items, Stage.items, Stage.texts, List.map_cons, List.map_cons, lineOf_cons,
    List.flatMap_cons, List.flatMap_cons]
  rfl

/-- The tokens of a quoted line are printed as the line. -/
theorem lineOf_quotedTokens (stages : List Stage) :
    lineOf (quotedTokens stages) = quotedLine stages := by
  cases stages with
  | nil => rfl
  | cons s stages =>
    -- the name of the first stage is the one token that no space precedes
    have hfirst : s.items.map Token.item
        = .word (quotedWord s.name) :: s.args.map fun v => .word (quotedWord v) := by
      simp [Stage.items, Stage.texts]
    calc lineOf (quotedTokens (s :: stages))
        = lineOf (s.items.map .item) ++
            stages.flatMap fun r => (Token.pipe :: r.items.map .item).flatMap fun t =>
              ' ' :: t.printed := by
          rw [quotedTokens, List.map_cons, intercalate_cons, List.flatMap_map, hfirst,
            List.cons_append, lineOf_cons, lineOf_cons, List.flatMap_append, List.flatMap_assoc,
            List.append_assoc]
          rfl
      _ = quotedLine (s :: stages) := by
          rw [quotedLine, List.map_cons, intercalate_cons, List.flatMap_map, lineOf_items]
          simp only [flatMap_pipe_items]

/-- Words are read one by one, and leave the store as it is. -/
theorem readItems_words (σ : Store) (ws : List Word) :
    readItems σ (ws.map .word) = (ws.map (Word.value σ), σ) := by
  induction ws with
  | nil => rfl
  | cons w ws ih => rw [List.map_cons, readItems, ih]; rfl

/-- The items of a quoted stage are read as its texts. -/
theorem readItems_items (σ : Store) (s : Stage) : readItems σ s.items = (s.texts, σ) := by
  have hread := readItems_words σ (s.texts.map quotedWord)
  rw [List.map_map, List.map_map] at hread
  have hvalues : s.texts.map (Word.value σ ∘ quotedWord) = s.texts :=
    (List.map_congr_left fun v _ => value_quotedWord σ v).trans (List.map_id _)
  rw [hvalues] at hread
  exact hread

/-- Quoted stages are planned as they are. -/
theorem readGroups_items (σ : Store) (stages : List Stage) :
    readGroups σ (stages.map Stage.items) = ⟨stages, σ⟩ := by
  induction stages with
  | nil => rfl
  | cons s stages ih =>
    rw [List.map_cons, readGroups, readItems_items]
    simp only [ih]
    rfl

/-- **Any pipeline can be written as a line.** The line in which the names and arguments of stages
stand in quotes is read without error, and it plans exactly those stages, whatever characters they
hold and whatever the variables are; it binds nothing. -/
theorem plan_quotedLine (σ : Store) (stages : List Stage) :
    lex (quotedLine stages) = .ok (quotedTokens stages) ∧
      plan σ (quotedTokens stages) = .ok ⟨stages, σ⟩ := by
  constructor
  · rw [← lineOf_quotedTokens]
    exact lex_lineOf (normalTokens_quotedTokens stages)
  · cases stages with
    | nil => rfl
    | cons s stages =>
      -- every stage has its name at least, so no group is empty
      have hwell : isWellFormed ((s :: stages).map Stage.items) = true := by
        rw [isWellFormed, Bool.or_eq_true, List.all_eq_true]
        refine .inr fun g hg => ?_
        obtain ⟨r, -, rfl⟩ := List.mem_map.1 hg
        rfl
      rw [plan, groups_quotedTokens (by simp), if_pos hwell, readGroups_items]

end PipeShell
