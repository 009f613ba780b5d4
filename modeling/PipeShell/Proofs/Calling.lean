import PipeShell.Proofs.Binding

/-! # What calls leave of a session

A session is called from outside: to execute a line, to execute a script, or to run a single stage. The
outputs are handed over with each call and may refuse a write at any point, and a source may break off.
None of this matters to the bindings: they are those of the lines that have been reached, in order.

* **`Call`**, **`Session.call`** — a call and what comes of it.
* **`Session.executed`** — the lines that some calls get to.
* **`Session.afterCalls_eq`** — the session after calls is the one after the lines they get to.
* **`Session.store_afterCalls`** — what becomes of the bindings, and what never changes. -/

namespace PipeShell

/-! ## Calls -/

/-- What can be asked of a session. -/
inductive Call.Request where
  /-- Execute a line. -/
  | line (text : Text)
  /-- Execute the command lines of a source. -/
  | script (src : Source)
  /-- Run a stage on an input. -/
  | stage (stage : Stage) (input : Source)
  deriving DecidableEq, Repr

/-- **A call**: what is asked, the files as they are then, and the outputs, which may refuse a write at
any point. -/
structure Call where
  request : Call.Request
  disk : Disk
  sinks : Sinks := {}

/-- **Answer a call.** A script has no exit code, and a stage only looks at the session. -/
def Session.call (s : Session) (c : Call) : Outcome (Option ExitCode) :=
  match c.request with
  | .line text =>
    let o := s.submit c.disk c.sinks text
    ⟨o.session, o.sinks, o.result.map some⟩
  | .script src =>
    let o := s.run c.disk c.sinks src
    ⟨o.session, o.sinks, o.result.map fun _ => none⟩
  | .stage stage input =>
    let (sinks, result) := s.runStage c.disk stage input c.sinks
    ⟨s, sinks, result.map some⟩

/-- **The session after some calls**, whatever their results are. -/
def Session.afterCalls (s : Session) (calls : List Call) : Session :=
  calls.foldl (fun s c => (s.call c).session) s

@[simp] theorem Session.afterCalls_nil (s : Session) : s.afterCalls [] = s := rfl

@[simp] theorem Session.afterCalls_cons (s : Session) (c : Call) (calls : List Call) :
    s.afterCalls (c :: calls) = (s.call c).session.afterCalls calls := rfl

/-! ## Lines that are reached -/

/-- **The lines that are reached** when lines are submitted until one of them fails: those before it,
and it as well. -/
def Session.reached (disk : Disk) : Session → Sinks → List Text → List Text
  | _, _, [] => []
  | s, sinks, line :: rest =>
    line :: match s.submit disk sinks line with
      | ⟨s, sinks, .ok _⟩ => reached disk s sinks rest
      | ⟨_, _, .error _⟩ => []

/-- Only the lines that are reached change the session. -/
theorem Session.session_submitAll (disk : Disk) (s : Session) (sinks : Sinks) (lines : List Text) :
    (s.submitAll disk sinks lines).session = (s.reached disk sinks lines).foldl afterLine s := by
  induction lines generalizing s sinks with
  | nil => rfl
  | cons line rest ih =>
    have hline := session_submit disk s sinks line
    rw [submitAll, reached, List.foldl_cons, ← hline]
    cases s.submit disk sinks line with
    | mk s' sinks' result =>
      cases result with
      | ok code => exact ih s' sinks'
      | error f => rfl

/-- A source that breaks off has no part in what becomes of the session. -/
theorem Session.session_run (disk : Disk) (s : Session) (sinks : Sinks) (src : Source) :
    (s.run disk sinks src).session
      = (s.reached disk sinks src.commandLines).foldl afterLine s := by
  rw [← session_submitAll, run]
  split <;> simp_all

/-- The lines that a call gets to. -/
def Session.executedBy (s : Session) (c : Call) : List Text :=
  match c.request with
  | .line text => [text]
  | .script src => s.reached c.disk c.sinks src.commandLines
  | .stage _ _ => []

/-- **The lines that some calls get to**, one call after the other. -/
def Session.executed : Session → List Call → List Text
  | _, [] => []
  | s, c :: calls => s.executedBy c ++ (s.call c).session.executed calls

/-- **A call leaves the session that its lines leave**: the step. -/
theorem Session.session_call (s : Session) (c : Call) :
    (s.call c).session = (s.executedBy c).foldl afterLine s := by
  unfold call executedBy
  cases c.request with
  | line text => exact session_submit c.disk s c.sinks text
  | script src => exact session_run c.disk s c.sinks src
  | stage stage input => rfl

/-- **Calls leave the session that their lines leave**: the run. -/
theorem Session.afterCalls_eq (s : Session) (calls : List Call) :
    s.afterCalls calls = (s.executed calls).foldl afterLine s := by
  induction calls generalizing s with
  | nil => rfl
  | cons c calls ih =>
    rw [afterCalls_cons, ih, executed, List.foldl_append, ← session_call]

/-! ## Bindings -/

/-- Only identifiers are assigned to by what is read. -/
theorem isName_of_mem_acceptedTokens {line name : Text} {value : Word}
    (h : .assign name value ∈ acceptedTokens line) : isName name = true := by
  obtain ⟨tokens, hlex, hmem⟩ := exists_lex_of_mem_acceptedTokens h
  obtain ⟨g, hg, hmem⟩ := item_mem_iff.1 hmem
  exact (normalTokens_of_lex hlex g hg).name name value hmem

/-- **What calls leave of a session.** Whatever is called, and wherever streams fail, the bindings
afterwards are those before, overwritten in order by the assignments of the lines that have been
reached and are not rejected. A name to which these assign has the value of the last assignment, which is
read with the bindings made before it; every other name keeps its value. The names bound are those bound
before and those assigned to, which are identifiers. Running a stage changes nothing, and the directory
and the language never change. -/
theorem Session.store_afterCalls (s : Session) (calls : List Call) :
    let after := s.afterCalls calls
    let made := (s.executed calls).flatMap acceptedTokens
    after.store = storeAfter s.store made ∧
    (∀ before name value rest, made = before ++ .assign name value :: rest →
      (∀ other, .assign name other ∉ rest) →
      after.store.get name = value.value (storeAfter s.store before)) ∧
    (∀ name, (∀ value, .assign name value ∉ made) →
      after.store.get name = s.store.get name ∧
        after.store.isBound name = s.store.isBound name) ∧
    (∀ name, after.store.isBound name = true ↔
      s.store.isBound name = true ∨ ∃ value, .assign name value ∈ made) ∧
    (∀ name value, .assign name value ∈ made → isName name = true) ∧
    (∀ stage input disk sinks, (after.call ⟨.stage stage input, disk, sinks⟩).session = after) ∧
    after.dir = s.dir ∧ after.locale = s.locale := by
  intro after made
  have hafter : after = { s with store := storeAfter s.store made } := by
    rw [← foldl_afterLine_eq, ← afterCalls_eq]
  have hstore : after.store = storeAfter s.store made := congrArg Session.store hafter
  have hbound (name : Text) : after.store.isBound name = true ↔
      s.store.isBound name = true ∨ ∃ value, .assign name value ∈ made := by
    rw [hstore, isBound_storeAfter]
  refine ⟨hstore, fun before name value rest hmade hlast => ?_, fun name hnone => ?_, hbound,
    fun name value hmem => ?_, fun stage input disk sinks => rfl, by rw [hafter], by rw [hafter]⟩
  · rw [hstore, hmade]
    exact get_storeAfter_of_last hlast s.store before value
  · have hsame : after.store.isBound name = true ↔ s.store.isBound name = true :=
      (hbound name).trans (or_iff_left fun ⟨value, hmem⟩ => hnone value hmem)
    rw [Bool.eq_iff_iff.2 hsame, hstore]
    exact ⟨get_storeAfter hnone s.store, rfl⟩
  · obtain ⟨line, -, hmem⟩ := List.mem_flatMap.1 hmem
    exact isName_of_mem_acceptedTokens hmem

/-- A name is bound again to what other bindings say. Of the other assignments to it one is in a line that
is rejected, one behind a line whose output is refused, one in the line in which a source breaks off, and
one is the argument of a stage. -/
theorem Session.store_afterCalls_of_failing_calls :
    let store : Store := .ofList [(['x'], ['0']), (['y'], "$x".toList)]
    let s : Session := { store := store, dir := ['/'], locale := .en }
    let disk : Disk := .ofList []
    let calls : List Call := [
      ⟨.line "x=$y\"$x\"".toList, disk, {}⟩,
      ⟨.line "x=9 y=9 |".toList, disk, {}⟩,
      ⟨.script { data := Text.utf8 "y=$x$x echo a\nx=7\n".toList }, disk, ⟨{ limit := some 0 }, {}⟩⟩,
      ⟨.script { data := Text.utf8 "z='$y'$y\nx=8".toList, fails := true }, disk, {}⟩,
      ⟨.stage ⟨"echo".toList, ["x=6".toList]⟩ {}, disk, {}⟩]
    let after := s.afterCalls calls
    s.executed calls = ["x=$y\"$x\"", "x=9 y=9 |", "y=$x$x echo a", "z='$y'$y"].map String.toList ∧
      after.store.get ['x'] = "$x0".toList ∧ after.store.get ['y'] = "$x0$x0".toList ∧
      after.store.get ['z'] = "$y$x0$x0".toList ∧
      ∀ name, after.store.isBound name = true ↔ name ∈ [['x'], ['y'], ['z']] := by
  intro store s disk calls after
  let x : Token := .assign ['x'] [.bare "$y".toList, .quoted .double "$x".toList]
  let y : Token := .assign ['y'] [.bare "$x$x".toList]
  let z : Token := .assign ['z'] [.quoted .single "$y".toList, .bare "$y".toList]
  let command : List Token := [.word [.bare "echo".toList], .word [.bare ['a']]]
  have hexecuted : s.executed calls
      = ["x=$y\"$x\"", "x=9 y=9 |", "y=$x$x echo a", "z='$y'$y"].map String.toList := by
    decide +kernel
  have hmade : (s.executed calls).flatMap acceptedTokens = x :: y :: command ++ [z] := by
    rw [hexecuted]
    decide +kernel
  obtain ⟨-, hlast, -, hbound, -⟩ := store_afterCalls s calls
  rw [hmade] at hlast hbound
  refine ⟨hexecuted, ?_, ?_, ?_, fun name => ?_⟩
  · exact (hlast [] _ _ (y :: command ++ [z]) rfl (by simp [y, command, z])).trans (by cbv)
  · exact (hlast [x] _ _ (command ++ [z]) rfl (by simp [command, z])).trans (by cbv)
  · exact (hlast (x :: y :: command) _ _ [] rfl (by simp)).trans (by cbv)
  · have hstart : s.store.isBound name = true ↔ name = ['x'] ∨ name = ['y'] := by
      have hbind : s.store = (Store.bind {} ['x'] ['0']).bind ['y'] "$x".toList := rfl
      simp [hbind, or_comm, @eq_comm Text name]
    have hassigned : (∃ value, .assign name value ∈ x :: y :: command ++ [z])
        ↔ name = ['x'] ∨ name = ['y'] ∨ name = ['z'] := by
      simp [x, y, z, command, exists_or]
    rw [hbound, hstart, hassigned]
    simp only [List.mem_cons, List.not_mem_nil]
    tauto

end PipeShell
