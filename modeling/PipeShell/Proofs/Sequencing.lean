import PipeShell.Proofs.Planning

/-! # Planning goes from left to right

What a word stands for is settled by the assignments before it on the line, on whichever side of a
pipe operator they are. Said token by token, without the groups that planning works on:

* **`storeAfter σ ts`** — the store after some tokens, each acting on the store that it finds.
* **`textAt σ line`** — the text of the word at a position of a line.
* **`textsBetweenPipes σ line`** — the texts of the words between pipe operators.
* **`groups_eq_splitOnP`** — the groups of a line are what stands between its pipe operators.
* **`textsBetweenPipes_eq`** — reading group by group gives every word the text of its position.
* **`plan_sequential`** — the stages and the store of a plan are those. -/

namespace PipeShell

/-! ## Cutting tokens at pipe operators -/

/-- Is the token the operator between stages? -/
def Token.isPipe : Token → Bool
  | .pipe => true
  | .item _ => false

/-- The item that a token is, if it is one. -/
def Token.item? : Token → Option Item
  | .pipe => none
  | .item i => some i

/-- **The groups of a line are what stands between its pipe operators.** -/
theorem groups_eq_splitOnP (ts : List Token) :
    groups ts = (ts.splitOnP Token.isPipe).map (·.filterMap Token.item?) := by
  induction ts with
  | nil => rfl
  | cons t ts ih =>
    cases t with
    | pipe =>
      have hpipe : Token.isPipe .pipe = true := rfl
      rw [groups_pipe, ih, List.splitOnP_cons_eq_if_modifyHead, if_pos hpipe]
      rfl
    | item i =>
      obtain ⟨g, gs, hg⟩ := List.exists_cons_of_ne_nil (List.splitOnP_ne_nil Token.isPipe ts)
      rw [groups, ih, List.splitOnP_cons_eq_if_modifyHead, if_neg (by simp [Token.isPipe]), hg]
      rfl

/-- There is one group more than there are pipe operators. -/
theorem length_groups (ts : List Token) : (groups ts).length = ts.count .pipe + 1 := by
  induction ts with
  | nil => rfl
  | cons t ts ih =>
    cases t with
    | pipe => rw [groups_pipe, List.length_cons, ih, List.count_cons_self]
    | item i =>
      obtain ⟨g, gs, hg⟩ := List.exists_cons_of_ne_nil (groups_ne_nil ts)
      rw [List.count_cons_of_ne (by simp), ← ih, groups, hg]
      rfl

/-- A token is an item exactly when one of the groups has it. -/
theorem item_mem_iff {ts : List Token} {i : Item} : .item i ∈ ts ↔ ∃ g ∈ groups ts, i ∈ g := by
  induction ts with
  | nil => simp
  | cons t ts ih =>
    cases t with
    | pipe => simp [ih]
    | item j =>
      obtain ⟨g, gs, hg⟩ := List.exists_cons_of_ne_nil (groups_ne_nil ts)
      rw [List.mem_cons, ih, groups, hg]
      simp [or_assoc]

/-! ## The store token by token -/

/-- **The store after one more token.** An assignment is made with the value that it has there. -/
def Token.install (σ : Store) : Token → Store
  | .item (.assign name value) => σ.bind name (value.value σ)
  | .item (.word _) => σ
  | .pipe => σ

/-- **The store after some tokens.** -/
def storeAfter (σ : Store) (ts : List Token) : Store := ts.foldl Token.install σ

@[simp] theorem storeAfter_nil (σ : Store) : storeAfter σ [] = σ := rfl

@[simp] theorem storeAfter_cons (σ : Store) (t : Token) (ts : List Token) :
    storeAfter σ (t :: ts) = storeAfter (t.install σ) ts := rfl

/-- Tokens act on the store that those before them have left. -/
theorem storeAfter_append (σ : Store) (ts us : List Token) :
    storeAfter σ (ts ++ us) = storeAfter (storeAfter σ ts) us :=
  List.foldl_append

/-- One more token acts on the store that those before it have left. -/
theorem storeAfter_concat (σ : Store) (ts : List Token) (t : Token) :
    storeAfter σ (ts ++ [t]) = t.install (storeAfter σ ts) := by
  rw [storeAfter_append, storeAfter_cons, storeAfter_nil]

/-- Reading the groups of a line leaves the store of its tokens. -/
theorem store_readGroups_groups (σ : Store) (ts : List Token) :
    (readGroups σ (groups ts)).store = storeAfter σ ts := by
  induction ts generalizing σ with
  | nil => rfl
  | cons t ts ih =>
    cases t with
    | pipe => exact ih σ
    | item i =>
      -- the item is read at the head of the group that the tokens after it begin
      obtain ⟨g, gs, hg⟩ := List.exists_cons_of_ne_nil (groups_ne_nil ts)
      rw [storeAfter_cons, ← ih, groups, hg]
      cases i <;> rfl

/-! ## The text of a position -/

/-- **The text of a word of a line**, given with its position: its value in the store after the tokens
before it. -/
def textAt (σ : Store) (line : List Token) : Token × Nat → Option Text
  | (.item (.word w), k) => some (w.value (storeAfter σ (line.take k)))
  | (.item (.assign _ _), _) => none
  | (.pipe, _) => none

/-- The text that a token has in a store, if it is a word. -/
def Token.text? (σ : Store) : Token → Option Text
  | .item (.word w) => some (w.value σ)
  | .item (.assign _ _) => none
  | .pipe => none

/-- The token after some others has the text that it has in the store after them. -/
theorem textAt_length (σ : Store) (before : List Token) (t : Token) (ts : List Token) :
    textAt σ (before ++ t :: ts) (t, before.length) = t.text? (storeAfter σ before) := by
  cases t with
  | pipe => rfl
  | item i =>
    cases i with
    | assign name value => rfl
    | word w => rw [textAt, List.take_left' rfl]; rfl

/-- **The texts of the words between pipe operators**, each as its position says. -/
def textsBetweenPipes (σ : Store) (line : List Token) : List (List Text) :=
  (line.zipIdx.splitOnP (·.1.isPipe)).map (·.filterMap (textAt σ line))

/-- The texts of the words of each group, read one group after the other. -/
def groupTexts (σ : Store) : List (List Item) → List (List Text)
  | [] => []
  | g :: gs => (readItems σ g).1 :: groupTexts (readItems σ g).2 gs

/-- Every group has its texts. -/
@[simp] theorem length_groupTexts (σ : Store) (gs : List (List Item)) :
    (groupTexts σ gs).length = gs.length := by
  induction gs generalizing σ with
  | nil => rfl
  | cons g gs ih => rw [groupTexts, List.length_cons, List.length_cons, ih]

/-- A token goes to the front of the group that the tokens after it begin. -/
theorem groupTexts_cons_item (σ : Store) (i : Item) (g : List Item) (gs : List (List Item)) :
    groupTexts σ ((i :: g) :: gs)
      = (groupTexts ((Token.item i).install σ) (g :: gs)).modifyHead
          (((Token.item i).text? σ).toList ++ ·) := by
  cases i <;> rfl

/-- The texts of the last tokens of a line are those of their groups, read in the store after the
tokens before them. -/
theorem map_textAt_splitOnP (σ : Store) (before ts : List Token) :
    ((ts.zipIdx before.length).splitOnP (·.1.isPipe)).map (·.filterMap (textAt σ (before ++ ts)))
      = groupTexts (storeAfter σ before) (groups ts) := by
  -- `before` grows by the token that is read, so that positions and store stay together
  induction ts generalizing before with
  | nil => rfl
  | cons t ts ih =>
    have hrest := ih (before ++ [t])
    rw [List.append_assoc, List.singleton_append, List.length_append, List.length_singleton,
      storeAfter_concat] at hrest
    rw [List.zipIdx_cons, List.splitOnP_cons_eq_if_modifyHead]
    cases t with
    | pipe =>
      have hpipe : Token.isPipe .pipe = true := rfl
      rw [if_pos hpipe, List.map_cons, hrest]
      rfl
    | item i =>
      obtain ⟨g, gs, hg⟩ := List.exists_cons_of_ne_nil (groups_ne_nil ts)
      rw [if_neg (by simp [Token.isPipe]), groups, hg]
      simp only
      rw [groupTexts_cons_item, ← hg, ← hrest]
      have htext := textAt_length σ before (.item i) ts
      cases (ts.zipIdx (before.length + 1)).splitOnP (·.1.isPipe) with
      | nil => rfl
      | cons c cs =>
        rw [List.modifyHead_cons, List.map_cons, List.map_cons, List.modifyHead_cons,
          List.filterMap_cons, htext]
        cases (Token.item i).text? (storeAfter σ before) <;> rfl

/-- **Reading group by group gives every word the text of its position.** -/
theorem textsBetweenPipes_eq (σ : Store) (line : List Token) :
    textsBetweenPipes σ line = groupTexts σ (groups line) :=
  map_textAt_splitOnP σ [] line

/-! ## Stages -/

/-- A group that names a command. -/
def NamesCommand (g : List Item) : Prop := ∃ i ∈ g, i.isWord = true

/-- A line is well formed if it has no pipe operator, or if every group names a command. -/
theorem isWellFormed_groups_iff (ts : List Token) :
    isWellFormed (groups ts) = true ↔ .pipe ∉ ts ∨ ∀ g ∈ groups ts, NamesCommand g := by
  rw [isWellFormed, Bool.or_eq_true, decide_eq_true_eq, length_groups, List.all_eq_true,
    ← List.count_eq_zero]
  simp only [List.any_eq_true, NamesCommand]
  refine or_congr_left ?_
  omega

/-- A group has as many texts as words. -/
theorem readItems_fst_eq_nil_iff (σ : Store) (g : List Item) :
    (readItems σ g).1 = [] ↔ ¬ NamesCommand g := by
  induction g generalizing σ with
  | nil => simp [NamesCommand]
  | cons i g ih =>
    cases i with
    | word w => simp [readItems, NamesCommand, Item.isWord]
    | assign name value =>
      rw [readItems_assign, ih]
      simp [NamesCommand, Item.isWord]

/-- The stages are made of the texts of the groups. -/
theorem stages_readGroups (σ : Store) (gs : List (List Item)) :
    (readGroups σ gs).stages = (groupTexts σ gs).filterMap Stage.ofTexts? := by
  induction gs generalizing σ with
  | nil => rfl
  | cons g gs ih =>
    rw [readGroups_cons, groupTexts, List.filterMap_cons, ih]
    cases Stage.ofTexts? (readItems σ g).1 <;> rfl

/-- Texts make the stage that has them. -/
theorem Stage.ofTexts?_texts {texts : List Text} (h : texts ≠ []) :
    ∃ s : Stage, Stage.ofTexts? texts = some s ∧ s.texts = texts := by
  cases texts with
  | nil => exact absurd rfl h
  | cons name args => exact ⟨⟨name, args⟩, rfl, rfl⟩

/-- **No group is dropped**: where every group names a command, there is one stage for each group,
with its texts. -/
theorem map_texts_readGroups (σ : Store) {gs : List (List Item)} (h : ∀ g ∈ gs, NamesCommand g) :
    (readGroups σ gs).stages.map Stage.texts = groupTexts σ gs := by
  rw [stages_readGroups]
  induction gs generalizing σ with
  | nil => rfl
  | cons g gs ih =>
    obtain ⟨hg, hgs⟩ := List.forall_mem_cons.1 h
    have htexts : (readItems σ g).1 ≠ [] := fun hnil => (readItems_fst_eq_nil_iff σ g).1 hnil hg
    obtain ⟨s, hs, hsame⟩ := Stage.ofTexts?_texts htexts
    rw [groupTexts, List.filterMap_cons_some hs, List.map_cons, hsame, ih _ hgs]

/-- Without a word there is nothing to run. -/
theorem stages_readGroups_eq_nil (σ : Store) {gs : List (List Item)}
    (h : ∀ g ∈ gs, ¬ NamesCommand g) : (readGroups σ gs).stages = [] := by
  rw [stages_readGroups]
  induction gs generalizing σ with
  | nil => rfl
  | cons g gs ih =>
    obtain ⟨hg, hgs⟩ := List.forall_mem_cons.1 h
    rw [groupTexts, (readItems_fst_eq_nil_iff σ g).2 hg, List.filterMap_cons_none rfl, ih _ hgs]

/-! ## Plans -/

/-- A line has a word exactly when one of its groups names a command. -/
theorem exists_word_mem_iff {ts : List Token} :
    (∃ w : Word, .word w ∈ ts) ↔ ∃ g ∈ groups ts, NamesCommand g := by
  simp only [item_mem_iff, NamesCommand]
  constructor
  · rintro ⟨w, g, hg, hw⟩
    exact ⟨g, hg, .word w, hw, rfl⟩
  · rintro ⟨g, hg, i, hi, hword⟩
    cases i with
    | word w => exact ⟨w, g, hg, hi⟩
    | assign name value => cases hword

/-- A well-formed line in which some group names a command has a command in every group. -/
theorem forall_namesCommand {ts : List Token} (hwell : isWellFormed (groups ts) = true)
    (h : ∃ g ∈ groups ts, NamesCommand g) : ∀ g ∈ groups ts, NamesCommand g := by
  rcases (isWellFormed_groups_iff ts).1 hwell with hpipe | hall
  -- without a pipe operator there is only the one group
  · have hone : (groups ts).length = 1 := by
      rw [length_groups, List.count_eq_zero.2 hpipe]
    obtain ⟨g, hg⟩ := List.length_eq_one_iff.1 hone
    rw [hg] at h ⊢
    simpa using h
  · exact hall

/-- **A plan does what the tokens of the line say from left to right.** The store that it leaves is the
one after all tokens. It has nothing to run exactly when the line has no word; otherwise there is one
stage more than there are pipe operators, and the name and the arguments of each are the words between
two operators, each with its value in the store after the tokens before it. -/
theorem plan_sequential {σ : Store} {tokens : List Token} {p : Plan} (h : plan σ tokens = .ok p) :
    p.store = storeAfter σ tokens ∧
      (p.stages = [] ↔ ∀ w : Word, .word w ∉ tokens) ∧
      (p.stages ≠ [] → p.stages.length = tokens.count .pipe + 1 ∧
        p.stages.map Stage.texts = textsBetweenPipes σ tokens) := by
  have hwell : isWellFormed (groups tokens) = true := by
    by_contra hbad
    rw [plan, if_neg hbad] at h
    cases h
  obtain rfl := eq_readGroups_of_plan h
  by_cases hword : ∃ w : Word, .word w ∈ tokens
  · have hall := forall_namesCommand hwell (exists_word_mem_iff.1 hword)
    have htexts := map_texts_readGroups σ hall
    rw [← textsBetweenPipes_eq] at htexts
    have hlength : (readGroups σ (groups tokens)).stages.length = tokens.count .pipe + 1 := by
      have hmap := congrArg List.length (map_texts_readGroups σ hall)
      rw [List.length_map, length_groupTexts, length_groups] at hmap
      exact hmap
    refine ⟨store_readGroups_groups σ tokens, ⟨fun hnil => ?_, fun hnone => ?_⟩,
      fun _ => ⟨hlength, htexts⟩⟩
    · rw [hnil] at hlength
      simp at hlength
    · obtain ⟨w, hw⟩ := hword
      exact absurd hw (hnone w)
  · have hnone : ∀ g ∈ groups tokens, ¬ NamesCommand g := fun g hg hcommand =>
      hword (exists_word_mem_iff.2 ⟨g, hg, hcommand⟩)
    have hnil := stages_readGroups_eq_nil σ hnone
    exact ⟨store_readGroups_groups σ tokens,
      ⟨fun _ w hw => hword ⟨w, hw⟩, fun _ => hnil⟩, fun hstages => absurd hnil hstages⟩

/-- An assignment after a word, which no line is read as, acts on the words after it and on the next
stage, and not on the words before it. -/
theorem plan_sequential_of_late_assignment :
    plan {} [.word [.bare "echo".toList], .word [.bare "$x".toList], .assign ['x'] [.bare ['1']],
        .word [.bare "$x".toList], .pipe, .word [.bare "c$x".toList], .assign ['x'] [.bare "$x2".toList]]
      = .ok ⟨[⟨"echo".toList, [[], ['1']]⟩, ⟨"c1".toList, []⟩], .ofList [(['x'], [])]⟩ ∧
    [["echo".toList, [], ['1']], ["c1".toList]]
      = textsBetweenPipes {} [.word [.bare "echo".toList], .word [.bare "$x".toList],
        .assign ['x'] [.bare ['1']], .word [.bare "$x".toList], .pipe, .word [.bare "c$x".toList],
        .assign ['x'] [.bare "$x2".toList]] := by
  have hplan : plan {} [.word [.bare "echo".toList], .word [.bare "$x".toList],
      .assign ['x'] [.bare ['1']], .word [.bare "$x".toList], .pipe, .word [.bare "c$x".toList],
      .assign ['x'] [.bare "$x2".toList]]
      = .ok ⟨[⟨"echo".toList, [[], ['1']]⟩, ⟨"c1".toList, []⟩], .ofList [(['x'], [])]⟩ := by cbv
  exact ⟨hplan, ((plan_sequential hplan).2.2 (by simp)).2⟩

end PipeShell
