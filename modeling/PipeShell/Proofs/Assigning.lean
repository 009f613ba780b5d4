import PipeShell.Proofs.Joining
import PipeShell.Proofs.Sequencing
import PipeShell.Proofs.Truncation

/-! # Assignments in front of a line

Assignments act on what comes after them, on the same line or on a later one. So a line of assignments
can be put in front of another line or be submitted before it; only a line that is rejected takes the
assignments in front of it down with it.

* **`lex_append_blanks`**, **`plan_append_of_isAssignment`** — a line in front of which there are only
  assignments.
* **`Session.submit_assignments`** — a line of nothing but assignments.
* **`Session.submit_glued`** — assignments on a line of their own and in front of another line. -/

namespace PipeShell

/-! ## Lines of assignments -/

/-- Is the token an assignment? -/
def Token.IsAssignment (t : Token) : Prop := ∃ (name : Text) (value : Word), t = .assign name value

/-- White space in front of a line makes no difference to its lexemes. -/
theorem scan_blanks_append {w : Text} (h : ∀ c ∈ w, isWhiteSpace c = true) (rest : Text) :
    scan none {} (w ++ rest) = scan none {} rest := by
  induction w with
  | nil => rfl
  | cons c w ih =>
    obtain ⟨hc, hw⟩ := List.forall_mem_cons.1 h
    rw [List.cons_append, endsWord_blank hc, ih hw]
    cases scan none {} rest <;> rfl

/-- White space ends a word, however much there is of it. -/
theorem endsWord_blanks {w : Text} (hne : w ≠ []) (h : ∀ c ∈ w, isWhiteSpace c = true)
    (rest : Text) : EndsWord (w ++ rest) (scan none {} rest) := by
  cases w with
  | nil => exact absurd rfl hne
  | cons c w =>
    obtain ⟨hc, hw⟩ := List.forall_mem_cons.1 h
    rw [← scan_blanks_append hw rest]
    exact endsWord_blank hc (w ++ rest)

/-- After assignments we are still at the start of a stage. -/
theorem tokensFrom_append_of_isAssignment {ls : List Lexeme}
    (h : ∀ t ∈ tokensFrom true ls, t.IsAssignment) (ms : List Lexeme) :
    tokensFrom true (ls ++ ms) = tokensFrom true ls ++ tokensFrom true ms := by
  induction ls with
  | nil => rfl
  | cons l ls ih =>
    cases l with
    | pipe =>
      obtain ⟨name, value, hpipe⟩ := h .pipe (by simp)
      cases hpipe
    | word w =>
      cases hw : w.assignment? with
      | none =>
        obtain ⟨name, value, hword⟩ := h (.word w) (by simp [tokensFrom, hw])
        cases hword
      | some a =>
        have hrest : ∀ t ∈ tokensFrom true ls, t.IsAssignment := by
          intro t ht
          exact h t (by simp [tokensFrom, hw, ht])
        rw [List.cons_append, tokensFrom, hw, tokensFrom, hw]
        simp only [ih hrest, List.cons_append]

/-- **A line after assignments and white space** has its own tokens and those of the assignments. -/
theorem lex_append_blanks {a w : Text} {ts : List Token} (ha : lex a = .ok ts)
    (hassign : ∀ t ∈ ts, t.IsAssignment) (hne : w ≠ []) (hw : ∀ c ∈ w, isWhiteSpace c = true)
    (b : Text) : lex (a ++ w ++ b) = (lex b).map (ts ++ ·) := by
  obtain ⟨ls, hls, rfl⟩ := exists_lexemes_of_lex ha
  rw [lex, lex, List.append_assoc, scan_append hls (endsWord_blanks hne hw b)]
  cases scan none {} b with
  | error reason => rfl
  | ok ms => simp only [Except.map, tokensFrom_append_of_isAssignment hassign]

/-- **An assignment in front of some tokens** only changes the store that they are planned in: no group
gains or loses its command. -/
theorem plan_assign (σ : Store) (name : Text) (value : Word) (us : List Token) :
    plan σ (.assign name value :: us) = plan (σ.bind name (value.value σ)) us := by
  obtain ⟨g, gs, hg⟩ := List.exists_cons_of_ne_nil (groups_ne_nil us)
  have hgroups : groups (.assign name value :: us) = (.assign name value :: g) :: gs := by
    rw [groups, hg]
  have hwell : isWellFormed ((.assign name value :: g) :: gs) = isWellFormed (g :: gs) := by
    simp [isWellFormed, Item.isWord]
  rw [plan, plan, hgroups, hg, hwell]
  rfl

/-- Assignments in front of some tokens are made before these are planned. -/
theorem plan_append_of_isAssignment {ts : List Token} (h : ∀ t ∈ ts, t.IsAssignment) (σ : Store)
    (us : List Token) : plan σ (ts ++ us) = plan (storeAfter σ ts) us := by
  induction ts generalizing σ with
  | nil => rfl
  | cons t ts ih =>
    obtain ⟨⟨name, value, rfl⟩, hts⟩ := List.forall_mem_cons.1 h
    rw [List.cons_append, plan_assign, ih hts]
    rfl

/-! ## Assignments in front of a line -/

/-- A line of assignments has nothing to run. -/
theorem planLine_assignments {a : Text} {ts : List Token} (ha : lex a = .ok ts)
    (hassign : ∀ t ∈ ts, t.IsAssignment) (σ : Store) :
    planLine σ a = .ok ⟨[], storeAfter σ ts⟩ := by
  have hnothing := plan_append_of_isAssignment hassign σ []
  rw [List.append_nil, plan_nil] at hnothing
  rw [planLine_of_lex ha, hnothing]

/-- A line of assignments makes them and does nothing else, on any outputs. -/
theorem Session.submit_assignments {a : Text} {ts : List Token} (ha : lex a = .ok ts)
    (hassign : ∀ t ∈ ts, t.IsAssignment) (disk : Disk) (s : Session) (sinks : Sinks) :
    s.submit disk sinks a = ⟨{ s with store := storeAfter s.store ts }, sinks, .ok .success⟩ := by
  have hreply : s.reply disk a = ({}, { s with store := storeAfter s.store ts }) := by
    rw [reply, planLine_assignments ha hassign]
    rfl
  rw [submit_eq, ← reply_snd s disk, hreply]
  simp

/-- Lines with the same plan do the same in sessions that differ only in their bindings. -/
theorem Session.submit_eq_of_planLine {σ : Store} {s : Session} {line other : Text} {p : Plan}
    (h : planLine s.store line = .ok p) (h' : planLine σ other = .ok p) (disk : Disk)
    (sinks : Sinks) :
    s.submit disk sinks line = ({ s with store := σ } : Session).submit disk sinks other := by
  -- no command looks at the bindings
  have hsame : ({ s with store := σ } : Session).pipelineReply disk p.stages
      = s.pipelineReply disk p.stages := rfl
  simp only [submit, reply, h, h', hsame]

/-- The session after a line does not depend on the outputs. -/
theorem Session.session_submit (disk : Disk) (s : Session) (sinks : Sinks) (line : Text) :
    (s.submit disk sinks line).session = s.afterLine line := by
  rw [submit_eq]
  split <;> rfl

/-- **Assignments in front of a line are assignments on a line of their own.** If the line after them
is accepted, it does the same as after the assignments: the outputs, the result and the session are
those of one line submitted after the other. If it is rejected, the whole line is, for the same reason
and with the same message and exit code, and none of the assignments is made. -/
theorem Session.submit_glued {a w : Text} {ts : List Token} (ha : lex a = .ok ts)
    (hassign : ∀ t ∈ ts, t.IsAssignment) (hne : w ≠ []) (hw : ∀ c ∈ w, isWhiteSpace c = true)
    (b : Text) (disk : Disk) (s : Session) (sinks : Sinks) :
    ((∀ reason, ¬ IsRejected b reason) →
      let first := s.submit disk sinks a
      first.result = .ok .success ∧
        s.submit disk sinks (a ++ w ++ b) = first.session.submit disk first.sinks b) ∧
    ∀ reason, IsRejected b reason →
      IsRejected (a ++ w ++ b) reason ∧
        (s.submit disk sinks (a ++ w ++ b)).session = s ∧
        s.submit disk sinks (a ++ w ++ b) = s.submit disk sinks b := by
  have hplan : planLine s.store (a ++ w ++ b) = planLine (storeAfter s.store ts) b := by
    rw [planLine, planLine, lex_append_blanks ha hassign hne hw]
    cases lex b with
    | error reason => rfl
    | ok us => exact plan_append_of_isAssignment hassign s.store us
  refine ⟨fun haccepted => ?_, fun reason hrejected => ?_⟩
  · rw [submit_assignments ha hassign]
    refine ⟨rfl, ?_⟩
    cases hb : planLine (storeAfter s.store ts) b with
    | error reason => exact absurd (planLine_eq_error_iff.1 hb) (haccepted reason)
    | ok p => exact submit_eq_of_planLine (hplan.trans hb) hb disk sinks
  · have hglued : IsRejected (a ++ w ++ b) reason :=
      planLine_eq_error_iff.1 (hplan.trans (planLine_eq_error_iff.2 hrejected))
    refine ⟨hglued, ?_, ?_⟩
    · rw [session_submit, ← reply_snd s disk, reply_of_isRejected hglued]
    · simp only [submit, reply_of_isRejected hglued, reply_of_isRejected hrejected]

/-- The assignments stand in front of a pipeline that refers to one of them, and of a pipe operator that
lacks a command before it. -/
theorem Session.submit_glued_to_pipeline :
    let s : Session := { dir := [], locale := .en }
    let disk : Disk := fun _ => .error .notFound
    let a := "x=1 y='2 3'".toList
    let w := " \t".toList
    let first := s.submit disk {} a
    (s.submit disk {} (a ++ w ++ "x=$y echo $x|cat".toList)).sinks.out.written
        = Text.utf8 "2 3\n".toList ∧
      s.submit disk {} (a ++ w ++ "x=$y echo $x|cat".toList)
        = first.session.submit disk first.sinks "x=$y echo $x|cat".toList ∧
      IsRejected (a ++ w ++ "|wc".toList) .missingCommand ∧
      (s.submit disk {} (a ++ w ++ "|wc".toList)).session = s := by
  intro s disk a w first
  have ha : lex a = .ok [.assign ['x'] [.bare ['1']],
      .assign ['y'] [.quoted .single "2 3".toList]] := rfl
  have hassign : ∀ t ∈ ([.assign ['x'] [.bare ['1']],
      .assign ['y'] [.quoted .single "2 3".toList]] : List Token), t.IsAssignment := by
    simp [Token.IsAssignment]
  have hne : w ≠ [] := by simp [w]
  have hw : ∀ c ∈ w, isWhiteSpace c = true := List.all_eq_true.1 (by decide)
  have hecho : ∀ reason, ¬ IsRejected "x=$y echo $x|cat".toList reason := by
    intro reason hrejected
    have hplan := planLine_eq_error_iff (σ := {}).2 hrejected
    have hok : planLine {} "x=$y echo $x|cat".toList = .ok ⟨[⟨"echo".toList, [[]]⟩, ⟨"cat".toList, []⟩],
        .ofList [(['x'], [])]⟩ := by cbv
    rw [hok] at hplan
    cases hplan
  have hwc : IsRejected "|wc".toList .missingCommand :=
    planLine_eq_error_iff (σ := {}).1 (by cbv)
  have hglued := submit_glued ha hassign hne hw "x=$y echo $x|cat".toList disk s {}
  have hspoilt := submit_glued ha hassign hne hw "|wc".toList disk s {}
  exact ⟨by decide +kernel, (hglued.1 hecho).2, (hspoilt.2 _ hwc).1, (hspoilt.2 _ hwc).2.1⟩

end PipeShell
