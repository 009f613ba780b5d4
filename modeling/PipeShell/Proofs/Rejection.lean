import Mathlib.Data.List.Induction
import PipeShell.Proofs.Lexing
import PipeShell.Proofs.Sequencing
import PipeShell.Session

/-! # Rejected lines

A line is rejected for one of two reasons, which can be read off its text, and then nothing has
happened: not even the assignments that stand before the fault have been made.

* **`BreaksOff line`**, **`LacksCommand tokens`** — the two faults; `IsRejected` pairs them with the
  reasons that are given for them.
* **`planLine_eq_error_iff`** — planning fails exactly on the faults.
* **`planInPlace`** — planning on a store that is changed in place; `run_planInPlace` shows that a
  rejection leaves it as it was.
* **`not_rejected_of_mem_pipelineReply`** — no command reports a rejection.
* **`Session.submit_rejected`** — which lines are rejected, and that nothing else comes of them. -/

namespace PipeShell

/-! ## Faults of a line -/

/-- **Is a quoted span opened and never closed?** -/
def BreaksOff (line : Text) : Prop :=
  ∃ (ss : List Segment) (q : Quote) (t : Text),
    (∀ s ∈ ss, s.WellFormed) ∧ q.mark ∉ t ∧ line = spelled ss ++ q.mark :: t

/-- **Is there a pipe operator, and somewhere between the operators no word?** -/
def LacksCommand (tokens : List Token) : Prop :=
  .pipe ∈ tokens ∧ ∃ g ∈ tokens.splitOnP Token.isPipe, ∀ w : Word, .word w ∉ g

/-- **Is a line at fault in the way that the reason says?** -/
def IsRejected (line : Text) : Rejection → Prop
  | .unclosedQuote => BreaksOff line
  | .missingCommand => ∃ tokens, lex line = .ok tokens ∧ LacksCommand tokens

/-- Reading a line fails exactly when it breaks off. -/
theorem lex_eq_error_iff {line : Text} {reason : Rejection} :
    lex line = .error reason ↔ reason = .unclosedQuote ∧ BreaksOff line := by
  constructor
  · intro h
    obtain ⟨ss, hss, rfl | ⟨q, t, ht, rfl⟩⟩ := exists_segments line
    · rw [lex_spelled hss] at h
      cases h
    · rw [lex_unclosed hss ht] at h
      exact ⟨(Except.error.inj h).symm, ss, q, t, hss, ht, rfl⟩
  · rintro ⟨rfl, ss, q, t, hss, ht, rfl⟩
    exact lex_unclosed hss ht

/-- The items of some tokens name a command exactly when one of the tokens is a word. -/
theorem namesCommand_filterMap_iff {g : List Token} :
    NamesCommand (g.filterMap Token.item?) ↔ ∃ w : Word, .word w ∈ g := by
  constructor
  · rintro ⟨i, hi, hword⟩
    obtain ⟨t, ht, hitem⟩ := List.mem_filterMap.1 hi
    cases t with
    | pipe => cases hitem
    | item j =>
      obtain rfl := Option.some.inj hitem
      cases j with
      | word w => exact ⟨w, ht⟩
      | assign name value => cases hword
  · rintro ⟨w, hw⟩
    exact ⟨.word w, List.mem_filterMap.2 ⟨.word w, hw, rfl⟩, rfl⟩

/-- The check of the groups fails exactly when a command is missing. -/
theorem isWellFormed_eq_false_iff {tokens : List Token} :
    isWellFormed (groups tokens) = false ↔ LacksCommand tokens := by
  rw [← Bool.not_eq_true, isWellFormed_groups_iff, not_or, not_not, groups_eq_splitOnP, LacksCommand]
  refine and_congr_right fun _ => ?_
  simp only [List.forall_mem_map, namesCommand_filterMap_iff, not_forall, not_exists, exists_prop]

/-- Planning tokens fails exactly when a command is missing. -/
theorem plan_eq_error_iff {σ : Store} {tokens : List Token} {reason : Rejection} :
    plan σ tokens = .error reason ↔ reason = .missingCommand ∧ LacksCommand tokens := by
  rw [← isWellFormed_eq_false_iff, plan]
  cases isWellFormed (groups tokens) <;> simp [eq_comm]

/-- **Planning a line fails exactly on its faults.** -/
theorem planLine_eq_error_iff {σ : Store} {line : Text} {reason : Rejection} :
    planLine σ line = .error reason ↔ IsRejected line reason := by
  rw [planLine]
  cases hlex : lex line with
  | error r =>
    obtain ⟨rfl, hbreak⟩ := lex_eq_error_iff.1 hlex
    cases reason with
    | unclosedQuote => exact ⟨fun _ => hbreak, fun _ => rfl⟩
    | missingCommand => simp [Except.bind, IsRejected, hlex]
  | ok tokens =>
    rw [Except.bind, plan_eq_error_iff]
    cases reason with
    | unclosedQuote =>
      -- a line that has been read does not break off
      have hnot : ¬ BreaksOff line := fun hbreak => by
        rw [lex_eq_error_iff.2 ⟨rfl, hbreak⟩] at hlex
        cases hlex
      simp [IsRejected, hnot]
    | missingCommand => simp [IsRejected, hlex]

/-! ## Planning in place

The bindings of a session are changed while a line is planned. That a rejected line leaves them as they
were is due to the check that comes before the first change. -/

/-- Read the items of a group, changing the store at every assignment. -/
def installItems : List Item → StateM Store (List Text)
  | [] => return []
  | .assign name value :: is => do
    modify fun σ => σ.bind name (value.value σ)
    installItems is
  | .word w :: is => do
    let text := w.value (← get)
    return text :: (← installItems is)

/-- Read groups one after the other, changing the store. -/
def installGroups : List (List Item) → StateM Store (List Stage)
  | [] => return []
  | g :: gs => do
    let texts ← installItems g
    let stages ← installGroups gs
    return (Stage.ofTexts? texts).toList ++ stages

/-- **Plan a line on a store that is changed in place.** -/
def planInPlace (tokens : List Token) : ExceptT Rejection (StateM Store) (List Stage) := do
  unless isWellFormed (groups tokens) do throw .missingCommand
  installGroups (groups tokens)

/-- What follows a computation on a store goes on with what it returns and leaves. -/
theorem run_bind_store {α β : Type} (σ : Store) (x : StateM Store α) (f : α → StateM Store β) :
    (x >>= f).run σ = (f (x.run σ).1).run (x.run σ).2 := rfl

/-- Items change the store in place as they are read. -/
theorem run_installItems (σ : Store) (is : List Item) :
    (installItems is).run σ = readItems σ is := by
  induction is generalizing σ with
  | nil => rfl
  | cons i is ih =>
    cases i with
    | assign name value => exact ih (σ.bind name (value.value σ))
    | word w =>
      rw [installItems, run_bind_store, run_bind_store]
      simp only [StateT.run_get]
      rw [readItems, ← ih]
      rfl

/-- Groups change the store in place as they are read. -/
theorem run_installGroups (σ : Store) (gs : List (List Item)) :
    (installGroups gs).run σ = ((readGroups σ gs).stages, (readGroups σ gs).store) := by
  induction gs generalizing σ with
  | nil => rfl
  | cons g gs ih =>
    rw [installGroups, run_bind_store, run_bind_store, run_installItems, ih, readGroups_cons]
    rfl

/-- **Planning in place is planning**, and a rejection leaves the store as it was. -/
theorem run_planInPlace (σ : Store) (tokens : List Token) :
    (planInPlace tokens).run.run σ = match plan σ tokens with
      | .ok p => (.ok p.stages, p.store)
      | .error reason => (.error reason, σ) := by
  unfold planInPlace plan
  cases isWellFormed (groups tokens) with
  | false => rfl
  | true =>
    have hgroups := run_installGroups σ (groups tokens)
    change (Except.ok ((installGroups (groups tokens)).run σ).1,
      ((installGroups (groups tokens)).run σ).2) = _
    rw [hgroups]
    rfl

/-! ## No command reports a rejection -/

/-- **Does a write report the rejection of a line?** -/
def Write.isRejection : Write → Bool
  | .err (.rejected _) => true
  | _ => false

/-- A command applied to files reports unreadable files and whatever its summary reports. -/
theorem Surroundings.not_isRejection_of_mem_overFiles {s : Surroundings} {cmd : Text}
    {shown : Text → Bytes → Bytes} {names : List Text} {summary : List Write}
    (h : ∀ w ∈ summary, w.isRejection = false) {w : Write}
    (hw : w ∈ (s.overFiles cmd shown names summary).writes) : w.isRejection = false := by
  rcases List.mem_append.1 hw with hw | hw
  · obtain ⟨name, -, rfl⟩ := List.mem_map.1 hw
    unfold showFile
    split <;> rfl
  · exact h w hw

/-- A command applied to its input reports nothing itself. -/
theorem Source.not_isRejection_of_mem_filter {src : Source} {shown : Bytes → Bytes} {w : Write}
    (hw : w ∈ (src.filter shown).writes) : w.isRejection = false := by
  unfold filter at hw
  split at hw
  · cases hw
  · rw [List.mem_singleton.1 hw]
    rfl

/-- The row of totals goes to the output. -/
theorem not_isRejection_of_mem_totalRow {s : Surroundings} {names : List Text} {w : Write}
    (hw : w ∈ totalRow s names) : w.isRejection = false := by
  unfold totalRow at hw
  split at hw
  · rw [List.mem_singleton.1 hw]
    rfl
  · cases hw

/-- No command reports the rejection of a line. -/
theorem Command.not_isRejection_of_mem_transcript {c : Command} {s : Surroundings}
    {args : List Text} {input : Source} {w : Write} (hw : w ∈ (c.transcript s args input).writes) :
    w.isRejection = false := by
  cases c with
  | echo | pwd => rw [List.mem_singleton.1 hw]; rfl
  | cat =>
    cases args with
    | nil => rw [List.mem_singleton.1 hw]; rfl
    | cons name names => exact Surroundings.not_isRejection_of_mem_overFiles (by simp) hw
  | wc =>
    cases args with
    | nil => exact Source.not_isRejection_of_mem_filter hw
    | cons name names =>
      exact Surroundings.not_isRejection_of_mem_overFiles
        (fun w => not_isRejection_of_mem_totalRow) hw
  | grep =>
    simp only [transcript] at hw
    cases hread : parseSearch args with
    | error e =>
      simp only [hread] at hw
      rw [List.mem_singleton.1 hw]
      cases e <;> rfl
    | ok r =>
      simp only [hread] at hw
      unfold SearchRequest.transcript at hw
      split at hw
      · exact Source.not_isRejection_of_mem_filter hw
      · exact Surroundings.not_isRejection_of_mem_overFiles (by simp) hw
      · exact Surroundings.not_isRejection_of_mem_overFiles (by simp) hw

/-- No stage reports the rejection of a line. -/
theorem Session.not_isRejection_of_mem_transcript {s : Session} {disk : Disk} {stage : Stage}
    {input : Source} {w : Write} (hw : w ∈ (s.transcript disk stage input).writes) :
    w.isRejection = false := by
  unfold transcript at hw
  split at hw
  · exact Command.not_isRejection_of_mem_transcript hw
  · rw [List.mem_singleton.1 hw]
    rfl

/-- **No pipeline reports the rejection of a line.** -/
theorem Session.not_rejected_of_mem_pipelineReply (s : Session) (disk : Disk)
    (stages : List Stage) (reason : Rejection) :
    .rejected reason ∉ (s.pipelineReply disk stages).diagnostics := by
  induction stages using List.reverseRecOn with
  | nil => simp
  | append_singleton stages stage ih =>
    rw [pipelineReply_concat]
    intro hmem
    rcases List.mem_append.1 hmem with hbefore | hhere
    · exact ih hbefore
    rcases List.mem_append.1 hhere with hwrite | hending
    · obtain ⟨w, hw, hdiagnostic⟩ := List.mem_filterMap.1 hwrite
      have hreport := not_isRejection_of_mem_transcript hw
      cases w with
      | out data => cases hdiagnostic
      | err d =>
        obtain rfl := Option.some.inj hdiagnostic
        cases hreport
    -- what is left is the report of a failing input
    · split at hending <;> simp at hending

/-! ## Rejected lines -/

/-- A line at fault is answered by its rejection alone, and the session stays as it is. -/
theorem Session.reply_of_isRejected {s : Session} {line : Text} {reason : Rejection}
    (h : IsRejected line reason) (disk : Disk) :
    s.reply disk line = ({ diagnostics := [.rejected reason], code := .usage }, s) := by
  rw [reply, planLine_eq_error_iff.2 h]

/-- A rejection is reported exactly for a line at fault. -/
theorem Session.rejected_mem_reply_iff {s : Session} {disk : Disk} {line : Text}
    {reason : Rejection} :
    .rejected reason ∈ (s.reply disk line).1.diagnostics ↔ IsRejected line reason := by
  constructor
  · intro hmem
    unfold reply at hmem
    split at hmem
    next r hplan =>
      obtain rfl : reason = r := by simpa using hmem
      exact planLine_eq_error_iff.1 hplan
    next p hplan => exact absurd hmem (s.not_rejected_of_mem_pipelineReply disk p.stages reason)
  · intro h
    rw [reply_of_isRejected h]
    exact List.mem_singleton_self _

/-- Planning in place fails exactly when planning does, and leaves the store as it was. -/
theorem run_planInPlace_eq_error_iff {σ τ : Store} {tokens : List Token} {reason : Rejection} :
    (planInPlace tokens).run.run σ = (.error reason, τ) ↔ plan σ tokens = .error reason ∧ τ = σ := by
  rw [run_planInPlace]
  cases plan σ tokens with
  | error r =>
    constructor
    · intro h
      cases h
      exact ⟨rfl, rfl⟩
    · rintro ⟨h, rfl⟩
      cases h
      rfl
  | ok p =>
    constructor
    · intro h
      cases h
    · rintro ⟨h, -⟩
      cases h

/-- **A rejected line changes nothing.** A line is rejected exactly if it breaks off inside a quoted
span, or has a pipe operator and no command on some side of one. Whatever the session, its commands and
the files are, the line then has no other effect than one diagnostic with the reason, and exit code 2.
Tokens that no line is read as are rejected for the same missing command, before any of their
assignments is made. -/
theorem Session.submit_rejected (s : Session) (disk : Disk) (line : Text) (reason : Rejection)
    (o e : Bytes) :
    (.rejected reason ∈ (s.reply disk line).1.diagnostics ↔ IsRejected line reason) ∧
      (IsRejected line reason →
        s.submit disk ⟨{ written := o }, { written := e }⟩ line
          = ⟨s, ⟨{ written := o }, { written := e ++ (Diagnostic.rejected reason).line s.locale }⟩,
              .ok .usage⟩) ∧
      ExitCode.usage.toNat = 2 ∧
      ∀ (σ : Store) (tokens : List Token),
        (plan σ tokens = .error reason ↔ reason = .missingCommand ∧ LacksCommand tokens) ∧
          ∀ τ : Store, (planInPlace tokens).run.run σ = (.error reason, τ)
            ↔ plan σ tokens = .error reason ∧ τ = σ := by
  refine ⟨rejected_mem_reply_iff, fun h => ?_, rfl,
    fun σ tokens => ⟨plan_eq_error_iff, fun τ => run_planInPlace_eq_error_iff⟩⟩
  simp only [submit, reply_of_isRejected h disk, Reply.writes, Sinks.play_unbounded]
  simp [Write.output, Write.diagnostic?]

/-- The assignment before a fault is not made: in `x=1 echo | y=2` the second stage has no command. -/
theorem Session.submit_rejected_of_assignment_stage :
    IsRejected "x=1 echo | y=2".toList .missingCommand ∧
      ({ dir := [], locale := .en } : Session).submit (fun _ => .error .notFound) {}
          "x=1 echo | y=2".toList
        = ⟨{ dir := [], locale := .en },
            ⟨{}, { written := Text.utf8 "terminal: syntax error: empty pipeline stage\n".toList }⟩,
            .ok .usage⟩ := by
  have hfault : IsRejected "x=1 echo | y=2".toList .missingCommand := by
    refine ⟨[.assign ['x'] [.bare ['1']], .word [.bare "echo".toList], .pipe,
      .assign ['y'] [.bare ['2']]], rfl, by simp, [.assign ['y'] [.bare ['2']]], ?_, by simp⟩
    decide
  refine ⟨hfault, ?_⟩
  rw [(submit_rejected _ _ _ _ [] []).2.1 hfault]
  rfl

end PipeShell
