import PipeShell.Proofs.Rejection

/-! # Joining two lines by a pipe operator

A line can be cut at any pipe operator outside quotes: what stands before it and what stands after it
are lines of their own. Read one after the other, each of them with something to run, they plan the
stages of the joined line; if one of them has nothing to run, the joined line is rejected as a whole.

* **`scan_append`** — what has been read of a line does not depend on what ends its last word.
* **`lex_append_pipe`** — the tokens of the joined line.
* **`RunsAs σ line p`** — a line is planned as `p`, and there is something to run.
* **`plan_append_pipe`** — the plan of joined tokens, in terms of the plans of the two lists.
* **`planLine_append_pipe`** — the same for lines, with the store of a rejected one. -/

namespace PipeShell

/-! ## Reading a line in front of another -/

/-- **What has been read of a line is read in front of whatever ends its last word.** -/
theorem scan_append {a : Text} {ls : List Lexeme} (ha : scan none {} a = .ok ls) {rest : Text}
    {after : Except Rejection (List Lexeme)} (hrest : EndsWord rest after) :
    scan none {} (a ++ rest) = after.map (ls ++ ·) := by
  obtain ⟨ss, hss, rfl | ⟨q, t, ht, rfl⟩⟩ := exists_segments a
  · have hend := scan_spelled hss endsWord_nil
    rw [List.append_nil, ha, Except.map, List.append_nil] at hend
    rw [scan_spelled hss hrest, ← Except.ok.inj hend]
  · -- a line that breaks off has not been read
    rw [scan_spelled hss (endsWord_unclosed ht)] at ha
    cases ha

/-- The tokens of a line are told from its lexemes. -/
theorem exists_lexemes_of_lex {line : Text} {ts : List Token} (h : lex line = .ok ts) :
    ∃ ls, scan none {} line = .ok ls ∧ tokensFrom true ls = ts := by
  unfold lex at h
  cases hscan : scan none {} line with
  | error reason =>
    rw [hscan] at h
    cases h
  | ok ls =>
    rw [hscan] at h
    exact ⟨ls, rfl, Except.ok.inj h⟩

/-- After a pipe operator assignments are told from words afresh. -/
theorem tokensFrom_append_pipe (atStart : Bool) (ls ms : List Lexeme) :
    tokensFrom atStart (ls ++ .pipe :: ms) = tokensFrom atStart ls ++ .pipe :: tokensFrom true ms := by
  fun_induction tokensFrom atStart ls with
  | case1 atStart => simp
  | case2 atStart ls ih => simp [ih]
  | case3 w ls ih => simp [tokensFrom, ih]
  | case4 w ls name value hassign ih => simp [tokensFrom, hassign, ih]
  | case5 w ls hnone ih => simp [tokensFrom, hnone, ih]

/-- **The tokens of a line and of what follows a pipe operator** are those of the whole. -/
theorem lex_append_pipe {a : Text} {ts : List Token} (ha : lex a = .ok ts) (b : Text) :
    lex (a ++ '|' :: b) = (lex b).map (ts ++ .pipe :: ·) := by
  obtain ⟨ls, hls, rfl⟩ := exists_lexemes_of_lex ha
  rw [lex, lex, scan_append hls (endsWord_pipe b)]
  cases scan none {} b with
  | error reason => rfl
  | ok ms => simp only [Except.map, tokensFrom_append_pipe]

/-! ## Planning joined tokens -/

/-- The groups of joined tokens are those of the first list and those of the second. -/
theorem groups_append_pipe (ts us : List Token) :
    groups (ts ++ .pipe :: us) = groups ts ++ groups us := by
  have hpipe : Token.isPipe .pipe = true := rfl
  rw [groups_eq_splitOnP, List.splitOnP_append_cons _ _ hpipe, List.map_append,
    ← groups_eq_splitOnP, ← groups_eq_splitOnP]

/-- Groups are read in the store that those before them have left. -/
theorem readGroups_append (σ : Store) (gs hs : List (List Item)) :
    readGroups σ (gs ++ hs)
      = ⟨(readGroups σ gs).stages ++ (readGroups (readGroups σ gs).store hs).stages,
          (readGroups (readGroups σ gs).store hs).store⟩ := by
  induction gs generalizing σ with
  | nil => rfl
  | cons g gs ih => rw [List.cons_append, readGroups_cons, readGroups_cons, ih, List.append_assoc]

/-- **There is something to run exactly if every group names a command.** Without one, a line that has
no pipe operator runs nothing, and any other is rejected. -/
theorem plan_eq_ok_and_stages_iff {σ : Store} {ts : List Token} {p : Plan} :
    plan σ ts = .ok p ∧ p.stages ≠ []
      ↔ (∀ g ∈ groups ts, NamesCommand g) ∧ p = readGroups σ (groups ts) := by
  constructor
  · rintro ⟨hplan, hstages⟩
    have hwell := isWellFormed_of_plan hplan
    obtain rfl := eq_readGroups_of_plan hplan
    refine ⟨forall_namesCommand hwell ?_, rfl⟩
    by_contra hnone
    push Not at hnone
    exact hstages (stages_readGroups_eq_nil σ hnone)
  · rintro ⟨hall, rfl⟩
    refine ⟨by rw [plan, if_pos ((isWellFormed_groups_iff ts).2 (.inr hall))], fun hnil => ?_⟩
    have htexts := congrArg List.length (map_texts_readGroups σ hall)
    rw [hnil, length_groupTexts] at htexts
    exact groups_ne_nil ts (List.length_eq_zero_iff.1 htexts.symm)

/-- **Joined tokens plan the stages of both lists**, the second read in the store that the first
leaves. -/
theorem plan_append_pipe {σ : Store} {ts us : List Token} {p q : Plan} (hp : plan σ ts = .ok p)
    (hp' : p.stages ≠ []) (hq : plan p.store us = .ok q) (hq' : q.stages ≠ []) :
    plan σ (ts ++ .pipe :: us) = .ok ⟨p.stages ++ q.stages, q.store⟩ := by
  obtain ⟨hts, rfl⟩ := plan_eq_ok_and_stages_iff.1 ⟨hp, hp'⟩
  obtain ⟨hus, rfl⟩ := plan_eq_ok_and_stages_iff.1 ⟨hq, hq'⟩
  have hall : ∀ g ∈ groups (ts ++ .pipe :: us), NamesCommand g := by
    rw [groups_append_pipe]
    exact List.forall_mem_append.2 ⟨hts, hus⟩
  obtain ⟨hplan, -⟩ := plan_eq_ok_and_stages_iff.2 ⟨hall, rfl⟩
  rw [hplan, groups_append_pipe, readGroups_append]

/-- **Joined tokens are rejected if one of the lists has nothing to run.** -/
theorem plan_append_pipe_eq_error {σ : Store} {ts us : List Token}
    (h : ¬ ∃ p q, (plan σ ts = .ok p ∧ p.stages ≠ []) ∧ plan p.store us = .ok q ∧ q.stages ≠ []) :
    plan σ (ts ++ .pipe :: us) = .error .missingCommand := by
  have hbad : ¬ isWellFormed (groups (ts ++ .pipe :: us)) = true := by
    rw [isWellFormed_groups_iff, groups_append_pipe, List.forall_mem_append]
    rintro (hpipe | ⟨hts, hus⟩)
    · simp at hpipe
    · exact h ⟨_, _, plan_eq_ok_and_stages_iff.2 ⟨hts, rfl⟩,
        plan_eq_ok_and_stages_iff.2 ⟨hus, rfl⟩⟩
  rw [plan, if_neg hbad]

/-! ## Joined lines -/

/-- **Is a line planned as `p`, with something to run?** -/
def RunsAs (σ : Store) (line : Text) (p : Plan) : Prop := planLine σ line = .ok p ∧ p.stages ≠ []

/-- A line is planned as its tokens are. -/
theorem planLine_of_lex {line : Text} {ts : List Token} (h : lex line = .ok ts) (σ : Store) :
    planLine σ line = plan σ ts := by
  rw [planLine, h]
  rfl

/-- **A pipe operator joins the pipelines of two lines.** If the first line runs something, and the
second does in the store that the first leaves, the joined line runs the stages of the first and then
those of the second, and leaves the store of the second. In every other case a stage of the joined
line has no command: it is rejected, and no assignment of either line is made. A quoted span that the
second line does not close is not closed in the joined line either. -/
theorem planLine_append_pipe {a : Text} {ts : List Token} (ha : lex a = .ok ts) (b : Text) :
    (lex b = .error .unclosedQuote → lex (a ++ '|' :: b) = .error .unclosedQuote) ∧
      ∀ us : List Token, lex b = .ok us →
        lex (a ++ '|' :: b) = .ok (ts ++ .pipe :: us) ∧
        ∀ σ : Store,
          (∀ p q : Plan, RunsAs σ a p → RunsAs p.store b q →
            RunsAs σ (a ++ '|' :: b) ⟨p.stages ++ q.stages, q.store⟩) ∧
          ((¬ ∃ p q : Plan, RunsAs σ a p ∧ RunsAs p.store b q) →
            planLine σ (a ++ '|' :: b) = .error .missingCommand ∧
            (planInPlace (ts ++ .pipe :: us)).run.run σ = (.error .missingCommand, σ)) := by
  have hlex := lex_append_pipe ha b
  refine ⟨fun hb => by rw [hlex, hb]; rfl, fun us hb => ?_⟩
  have hjoined : lex (a ++ '|' :: b) = .ok (ts ++ .pipe :: us) := by
    rw [hlex, hb]
    rfl
  refine ⟨hjoined, fun σ => ?_⟩
  simp only [RunsAs, planLine_of_lex ha, planLine_of_lex hb, planLine_of_lex hjoined]
  constructor
  · rintro p q ⟨hp, hp'⟩ ⟨hq, hq'⟩
    exact ⟨plan_append_pipe hp hp' hq hq', by simp [hp']⟩
  · intro hnone
    have hrejected := plan_append_pipe_eq_error hnone
    exact ⟨hrejected, by rw [run_planInPlace, hrejected]⟩

/-- What `x` is assigned before the pipe operator is read after it; a line of assignments on either
side of it spoils the whole. -/
theorem planLine_append_pipe_of_assigned :
    RunsAs {} "x=1 echo $x".toList ⟨[⟨"echo".toList, [['1']]⟩], .ofList [(['x'], ['1'])]⟩ ∧
      RunsAs {} ("x=1 echo $x".toList ++ '|' :: "x=$x$x cat $x".toList)
        ⟨[⟨"echo".toList, [['1']]⟩, ⟨"cat".toList, ["11".toList]⟩],
          .ofList [(['x'], "11".toList)]⟩ ∧
      planLine {} ("x=1 echo $x".toList ++ '|' :: "y=2".toList) = .error .missingCommand ∧
      lex ("x=1 echo $x".toList ++ '|' :: "'".toList) = .error .unclosedQuote := by
  have ha : lex "x=1 echo $x".toList
      = .ok [.assign ['x'] [.bare ['1']], .word [.bare "echo".toList], .word [.bare "$x".toList]] := rfl
  have hcat : lex "x=$x$x cat $x".toList = .ok [.assign ['x'] [.bare "$x$x".toList],
      .word [.bare "cat".toList], .word [.bare "$x".toList]] := rfl
  have hassign : lex "y=2".toList = .ok [.assign ['y'] [.bare ['2']]] := rfl
  have hfirst : RunsAs {} "x=1 echo $x".toList
      ⟨[⟨"echo".toList, [['1']]⟩], .ofList [(['x'], ['1'])]⟩ := ⟨by cbv, by simp⟩
  have hsecond : RunsAs (.ofList [(['x'], ['1'])]) "x=$x$x cat $x".toList
      ⟨[⟨"cat".toList, ["11".toList]⟩], .ofList [(['x'], "11".toList)]⟩ := ⟨by cbv, by simp⟩
  have hnothing : ∀ (σ : Store) (q : Plan), ¬ RunsAs σ "y=2".toList q := by
    rintro σ q ⟨hq, hstages⟩
    rw [planLine_of_lex hassign] at hq
    obtain rfl := eq_readGroups_of_plan hq
    exact hstages rfl
  obtain ⟨-, hjoined⟩ := (planLine_append_pipe ha "x=$x$x cat $x".toList).2 _ hcat
  obtain ⟨-, hspoilt⟩ := (planLine_append_pipe ha "y=2".toList).2 _ hassign
  refine ⟨hfirst, (hjoined {}).1 _ _ hfirst hsecond, ((hspoilt {}).2 ?_).1,
    (planLine_append_pipe ha "'".toList).1 rfl⟩
  rintro ⟨p, q, -, hq⟩
  exact hnothing p.store q hq

end PipeShell
