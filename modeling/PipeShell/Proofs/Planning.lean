import Mathlib
import PipeShell.Pipeline

/-! # Planning does not look into values

How many stages a line has, how many arguments each of them has and which names it binds is settled by
its tokens; the values of the variables only fill in the texts.

* **`commandsOf`**, **`boundNames`** — the words that make the stages, and the names that are bound.
* **`StandFor`** — a stage has one text for each of the words it is made of.
* **`Plan.shape`** — the number of arguments of each stage.
* **`map_shape_planLine`** — the outcome of planning a line has the same shape in all stores. -/

namespace PipeShell

/-! ## The words and the names of a line -/

/-- The word that an item is, if it is one. -/
def Item.word? : Item → Option Word
  | .word w => some w
  | .assign _ _ => none

/-- The name that an item binds, if it binds one. -/
def Item.boundName? : Item → Option Text
  | .word _ => none
  | .assign name _ => some name

/-- **The words that make the stages**: those of each group that has any. -/
def commandsOf (gs : List (List Item)) : List (List Word) :=
  (gs.map (·.filterMap Item.word?)).filter (!·.isEmpty)

/-- **The names that are bound**, in order. -/
def boundNames (gs : List (List Item)) : List Text := gs.flatten.filterMap Item.boundName?

/-- A group with words makes a stage, one without makes none. -/
theorem commandsOf_cons (g : List Item) (gs : List (List Item)) :
    commandsOf (g :: gs)
      = if g.filterMap Item.word? = [] then commandsOf gs
        else g.filterMap Item.word? :: commandsOf gs := by
  rw [commandsOf, List.map_cons, List.filter_cons]
  by_cases hg : g.filterMap Item.word? = [] <;> simp [hg, commandsOf]

theorem boundNames_cons (g : List Item) (gs : List (List Item)) :
    boundNames (g :: gs) = g.filterMap Item.boundName? ++ boundNames gs := by
  rw [boundNames, List.flatten_cons, List.filterMap_append]
  rfl

/-! ## One text for each word -/

/-- The texts of a stage: its name and its arguments. -/
def Stage.texts (s : Stage) : List Text := s.name :: s.args

/-- **Does each word stand for one text?** The whole text is the value of the word in some store. -/
def StandFor (ws : List Word) (texts : List Text) : Prop :=
  List.Forall₂ (fun w t => ∃ ρ : Store, w.value ρ = t) ws texts

/-- Each word of a group is read as one text, also when its value is empty. -/
theorem standFor_readItems (σ : Store) (is : List Item) :
    StandFor (is.filterMap Item.word?) (readItems σ is).1 := by
  induction is generalizing σ with
  | nil => exact .nil
  | cons i is ih =>
    cases i with
    | word w => exact .cons ⟨σ, rfl⟩ (ih σ)
    | assign name value => exact ih (σ.bind name (value.value σ))

/-- A group is read before those that follow it. -/
theorem readGroups_cons (σ : Store) (g : List Item) (gs : List (List Item)) :
    readGroups σ (g :: gs)
      = ⟨(Stage.ofTexts? (readItems σ g).1).toList ++ (readGroups (readItems σ g).2 gs).stages,
          (readGroups (readItems σ g).2 gs).store⟩ := rfl

/-- **Each group with words makes one stage**, with one text for each word. -/
theorem standFor_readGroups (σ : Store) (gs : List (List Item)) :
    List.Forall₂ (fun ws (s : Stage) => StandFor ws s.texts) (commandsOf gs)
      (readGroups σ gs).stages := by
  induction gs generalizing σ with
  | nil => exact .nil
  | cons g gs ih =>
    have hgroup := standFor_readItems σ g
    have hrest := ih (readItems σ g).2
    rw [commandsOf_cons, readGroups_cons]
    cases hwords : g.filterMap Item.word? with
    -- a group of assignments only makes no stage, but the next groups see its bindings
    | nil =>
      rw [hwords] at hgroup
      rw [if_pos rfl, List.forall₂_nil_left_iff.1 hgroup]
      exact hrest
    | cons w ws =>
      rw [hwords] at hgroup
      obtain ⟨t, texts, ht, htexts, hread⟩ := List.forall₂_cons_left_iff.1 hgroup
      rw [if_neg (by simp), hread]
      exact .cons (.cons ht htexts) hrest

/-! ## The names bound -/

/-- The names bound after some items are those bound before and those that the items bind. -/
theorem isBound_readItems (σ : Store) (is : List Item) (name : Text) :
    (readItems σ is).2.isBound name
      = (σ.isBound name || (is.filterMap Item.boundName?).contains name) := by
  induction is generalizing σ with
  | nil => simp
  | cons i is ih =>
    cases i with
    | word w => exact ih σ
    | assign other value =>
      rw [readItems_assign, ih, Store.isBound_bind, List.filterMap_cons, Item.boundName?,
        List.contains_cons]
      by_cases hname : other = name
      · simp [hname]
      · have hbeq : (name == other) = false := beq_eq_false_iff_ne.2 (Ne.symm hname)
        simp [hname, hbeq]

/-- The same for a whole line. -/
theorem isBound_readGroups (σ : Store) (gs : List (List Item)) (name : Text) :
    (readGroups σ gs).store.isBound name = (σ.isBound name || (boundNames gs).contains name) := by
  induction gs generalizing σ with
  | nil => simp [readGroups, boundNames]
  | cons g gs ih =>
    rw [readGroups_cons, ih, isBound_readItems, boundNames_cons, Bool.or_assoc]
    simp

/-! ## The shape of a plan -/

/-- **The shape of a plan**: the number of arguments of each stage. -/
def Plan.shape (p : Plan) : List Nat := p.stages.map (·.args.length)

/-- A stage has one argument less than it has words. -/
theorem map_length_args {commands : List (List Word)} {stages : List Stage}
    (h : List.Forall₂ (fun ws (s : Stage) => StandFor ws s.texts) commands stages) :
    stages.map (·.args.length) = commands.map (·.length - 1) := by
  induction h with
  | nil => rfl
  | cons hstage _ ih =>
    have hlength := hstage.length_eq
    rw [List.map_cons, List.map_cons, ih, hlength]
    rfl

/-- The shape is settled by the words. -/
theorem shape_readGroups (σ : Store) (gs : List (List Item)) :
    (readGroups σ gs).shape = (commandsOf gs).map (·.length - 1) :=
  map_length_args (standFor_readGroups σ gs)

/-- The outcomes of planning some tokens have the same shape in all stores. -/
theorem map_shape_plan (σ τ : Store) (tokens : List Token) :
    (plan σ tokens).map Plan.shape = (plan τ tokens).map Plan.shape := by
  -- no store is asked whether the tokens are well formed
  unfold plan
  split
  · simp only [Except.map, shape_readGroups]
  · rfl

/-- Only well-formed tokens are planned. -/
theorem isWellFormed_of_plan {σ : Store} {tokens : List Token} {p : Plan}
    (h : plan σ tokens = .ok p) : isWellFormed (groups tokens) = true := by
  by_contra hbad
  rw [plan, if_neg hbad] at h
  cases h

/-- A plan is read from the groups of the tokens. -/
theorem eq_readGroups_of_plan {σ : Store} {tokens : List Token} {p : Plan}
    (h : plan σ tokens = .ok p) : p = readGroups σ (groups tokens) := by
  unfold plan at h
  split at h
  · exact (Except.ok.inj h).symm
  · cases h

/-- **Values cannot change what a line is.** Whatever the variables hold, a line is rejected for the
same reason, or has the same number of stages with the same number of arguments each; every text of a
stage is the value of one word, and the names that it binds are those of its assignments. -/
theorem map_shape_planLine (line : Text) :
    (∀ σ τ : Store, (planLine σ line).map Plan.shape = (planLine τ line).map Plan.shape) ∧
      ∀ tokens : List Token, lex line = .ok tokens →
        ∀ (σ : Store) (p : Plan), planLine σ line = .ok p →
          List.Forall₂ (fun ws (s : Stage) => StandFor ws s.texts) (commandsOf (groups tokens))
            p.stages ∧
          ∀ name : Text, p.store.isBound name
            = (σ.isBound name || (boundNames (groups tokens)).contains name) := by
  constructor
  · intro σ τ
    unfold planLine
    cases lex line with
    | error reason => rfl
    | ok tokens => exact map_shape_plan σ τ tokens
  · intro tokens hlex σ p hp
    rw [planLine, hlex] at hp
    obtain rfl := eq_readGroups_of_plan hp
    exact ⟨standFor_readGroups σ (groups tokens), isBound_readGroups σ (groups tokens)⟩

/-- A value with a space, a pipe operator and a quotation mark is one argument, and so is an empty
one. -/
theorem map_shape_planLine_of_special_value :
    (lex "y=$x echo $x|wc $z".toList
        = .ok [.assign ['y'] [.bare "$x".toList], .word [.bare "echo".toList],
            .word [.bare "$x".toList], .pipe, .word [.bare "wc".toList],
            .word [.bare "$z".toList]] ∧
      planLine (.ofList [(['x'], "a | '".toList)]) "y=$x echo $x|wc $z".toList
        = .ok ⟨[⟨"echo".toList, ["a | '".toList]⟩, ⟨"wc".toList, [[]]⟩],
            .ofList [(['x'], "a | '".toList), (['y'], "a | '".toList)]⟩) ∧
    (planLine {} "y=$x echo $x|wc $z".toList).map Plan.shape
        = (planLine (.ofList [(['x'], "a | '".toList)]) "y=$x echo $x|wc $z".toList).map
            Plan.shape ∧
    (Store.ofList [(['x'], "a | '".toList), (['y'], "a | '".toList)]).isBound ['y']
        = ((Store.ofList [(['x'], "a | '".toList)]).isBound ['y'] ||
            (boundNames (groups [.assign ['y'] [.bare "$x".toList], .word [.bare "echo".toList],
              .word [.bare "$x".toList], .pipe, .word [.bare "wc".toList],
              .word [.bare "$z".toList]])).contains ['y']) := by
  have hlex : lex "y=$x echo $x|wc $z".toList
      = .ok [.assign ['y'] [.bare "$x".toList], .word [.bare "echo".toList],
          .word [.bare "$x".toList], .pipe, .word [.bare "wc".toList],
          .word [.bare "$z".toList]] := rfl
  have hplan : planLine (.ofList [(['x'], "a | '".toList)]) "y=$x echo $x|wc $z".toList
      = .ok ⟨[⟨"echo".toList, ["a | '".toList]⟩, ⟨"wc".toList, [[]]⟩],
          .ofList [(['x'], "a | '".toList), (['y'], "a | '".toList)]⟩ := by cbv
  have hmain := map_shape_planLine "y=$x echo $x|wc $z".toList
  exact ⟨⟨hlex, hplan⟩, hmain.1 {} _, (hmain.2 _ hlex _ _ hplan).2 ['y']⟩

end PipeShell
