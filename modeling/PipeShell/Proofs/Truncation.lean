import PipeShell.Proofs.Staging

/-! # Runs on outputs that fill up

Outputs that take only so many bytes do not change what the lines of a script do. They hold the first
bytes of what a run on unlimited outputs writes, up to the line at which one of them overflows; there
the run ends, with the session as that line has left it.

* **`Sink.capped n bs`** — an output for `n` bytes that has been handed `bs`.
* **`Session.submit_capped`** — a line on such outputs: the step.
* **`Session.submitAll_capped`** — lines on such outputs: the run, by induction on the lines.
* **`Session.run_capped`** — scripts and single lines on limited outputs, against unlimited ones. -/

namespace PipeShell

/-! ## Outputs for so many bytes -/

/-- **An output for `n` bytes that has been handed some bytes**: it holds the first `n` of them. -/
def Sink.capped (n : Nat) (bs : Bytes) : Sink := { limit := some n, written := bs.take n }

/-- What is handed on is cut in the same place. -/
theorem Sink.push_capped (n : Nat) (bs data : Bytes) :
    (capped n bs).push data = capped n (bs ++ data) := by
  have hroom : n - (bs.take n).length = n - bs.length := by
    rw [List.length_take]
    omega
  simp only [push, capped, List.take_append, hroom]

/-- An output that is not overfull takes what does not make it so. -/
theorem Sink.accepts_capped {n : Nat} {bs : Bytes} (h : bs.length ≤ n) (data : Bytes) :
    (capped n bs).accepts data = decide ((bs ++ data).length ≤ n) := by
  simp only [accepts, capped, List.take_of_length_le h, List.length_append, decide_eq_decide]
  omega

/-! ## Lines -/

/-- Two outputs without limits that hold some bytes. -/
def Sinks.holding (o e : Bytes) : Sinks := ⟨{ written := o }, { written := e }⟩

/-- **Do the bytes fit** into outputs with the given limits? -/
def Sinks.Fits (lo le : Nat) (s : Sinks) : Prop :=
  s.out.written.length ≤ lo ∧ s.err.written.length ≤ le

instance (lo le : Nat) (s : Sinks) : Decidable (s.Fits lo le) :=
  inferInstanceAs (Decidable (_ ∧ _))

/-- The limited outputs that have been handed what unlimited ones hold. -/
def Sinks.capped (lo le : Nat) (s : Sinks) : Sinks :=
  ⟨.capped lo s.out.written, .capped le s.err.written⟩

/-- The limited outputs after a line that overflows one of them: the output of the line is not written
if its diagnostics do not fit. -/
def Sinks.overflown (lo le : Nat) (before after : Sinks) : Sinks :=
  ⟨.capped lo (if after.err.written.length ≤ le then after.out.written else before.out.written),
    .capped le after.err.written⟩

/-- A line on outputs without limits. -/
theorem Session.submit_holding (disk : Disk) (s : Session) (o e : Bytes) (line : Text) :
    s.submit disk (.holding o e) line
      = ⟨s.afterLine line,
          .holding (o ++ (s.reply disk line).1.output)
            (e ++ reportOf s.locale (s.reply disk line).1.diagnostics),
          .ok (s.reply disk line).1.code⟩ := by
  rw [Sinks.holding, submit_eq]
  rfl

/-- **A line on limited outputs** does what it does on unlimited ones, and fails if that does not
fit. -/
theorem Session.submit_capped (disk : Disk) (s : Session) {lo le : Nat} {o e : Bytes}
    (h : (Sinks.holding o e).Fits lo le) (line : Text) :
    s.submit disk ((Sinks.holding o e).capped lo le) line
      = if (s.submit disk (.holding o e) line).sinks.Fits lo le then
          ⟨(s.submit disk (.holding o e) line).session,
            (s.submit disk (.holding o e) line).sinks.capped lo le,
            (s.submit disk (.holding o e) line).result⟩
        else
          ⟨(s.submit disk (.holding o e) line).session,
            .overflown lo le (.holding o e) (s.submit disk (.holding o e) line).sinks,
            .error .sinkFull⟩ := by
  have ho : o.length ≤ lo := h.1
  have he : e.length ≤ le := h.2
  have hcapped : (Sinks.holding o e).capped lo le = ⟨.capped lo o, .capped le e⟩ := rfl
  rw [hcapped, submit_eq, submit_holding, Sink.accepts_capped he, Sink.accepts_capped ho,
    Sink.push_capped, Sink.push_capped]
  generalize o ++ (s.reply disk line).1.output = o'
  generalize e ++ reportOf s.locale (s.reply disk line).1.diagnostics = e'
  by_cases hdiagnostics : e'.length ≤ le
  · by_cases hout : o'.length ≤ lo
    · simp [Sinks.Fits, Sinks.holding, Sinks.capped, hdiagnostics, hout]
    · simp [Sinks.Fits, Sinks.holding, Sinks.overflown, hdiagnostics, hout]
  · simp [Sinks.Fits, Sinks.holding, Sinks.overflown, hdiagnostics]

/-! ## Runs -/

/-- The first of some lines on outputs without limits, and then the others. -/
theorem Session.submitAll_holding_cons (disk : Disk) (s : Session) (o e : Bytes) (line : Text)
    (rest : List Text) :
    s.submitAll disk (.holding o e) (line :: rest)
      = (s.afterLine line).submitAll disk
          (.holding (o ++ (s.reply disk line).1.output)
            (e ++ reportOf s.locale (s.reply disk line).1.diagnostics)) rest := by
  rw [submitAll, submit_holding]

/-- **Lines on outputs without limits**: nothing fails, each line acts on the session that those before
it have left, and what is written does not depend on what the outputs hold. -/
theorem Session.submitAll_holding (disk : Disk) (s : Session) (lines : List Text) :
    ∃ o' e' : Bytes, ∀ o e : Bytes,
      s.submitAll disk (.holding o e) lines
        = ⟨lines.foldl afterLine s, .holding (o ++ o') (e ++ e'), .ok ()⟩ := by
  induction lines generalizing s with
  | nil => exact ⟨[], [], by simp⟩
  | cons line rest ih =>
    obtain ⟨o', e', hrest⟩ := ih (s.afterLine line)
    refine ⟨(s.reply disk line).1.output ++ o',
      reportOf s.locale (s.reply disk line).1.diagnostics ++ e', fun o e => ?_⟩
    rw [submitAll_holding_cons, hrest, List.append_assoc, List.append_assoc, List.foldl_cons]

/-- What does not fit after some lines does not fit after more of them. -/
theorem Sinks.Fits.of_submitAll {disk : Disk} {s : Session} {lo le : Nat} {o e : Bytes}
    {lines : List Text} (h : (s.submitAll disk (.holding o e) lines).sinks.Fits lo le) :
    (Sinks.holding o e).Fits lo le := by
  obtain ⟨o', e', hrun⟩ := s.submitAll_holding disk lines
  rw [hrun] at h
  simp only [Fits, holding, List.length_append] at h ⊢
  omega

/-- **Lines on limited outputs.** If what they write on unlimited outputs fits, they do the same on the
limited ones. Otherwise there is a first line up to which it does not, and there the run ends. -/
theorem Session.submitAll_capped (disk : Disk) (s : Session) {lo le : Nat} {o e : Bytes}
    (h : (Sinks.holding o e).Fits lo le) (lines : List Text) :
    ((s.submitAll disk (.holding o e) lines).sinks.Fits lo le →
      s.submitAll disk ((Sinks.holding o e).capped lo le) lines
        = ⟨(s.submitAll disk (.holding o e) lines).session,
            (s.submitAll disk (.holding o e) lines).sinks.capped lo le, .ok ()⟩) ∧
    (¬ (s.submitAll disk (.holding o e) lines).sinks.Fits lo le →
      ∃ k < lines.length,
        (∀ j ≤ k, (s.submitAll disk (.holding o e) (lines.take j)).sinks.Fits lo le) ∧
        ¬ (s.submitAll disk (.holding o e) (lines.take (k + 1))).sinks.Fits lo le ∧
        s.submitAll disk ((Sinks.holding o e).capped lo le) lines
          = ⟨(s.submitAll disk (.holding o e) (lines.take (k + 1))).session,
              .overflown lo le (s.submitAll disk (.holding o e) (lines.take k)).sinks
                (s.submitAll disk (.holding o e) (lines.take (k + 1))).sinks,
              .error .sinkFull⟩) := by
  induction lines generalizing s o e with
  | nil => exact ⟨fun _ => rfl, fun hnot => absurd h hnot⟩
  | cons line rest ih =>
    have hline := submit_capped disk s h line
    have hstep := s.submitAll_holding_cons disk o e line
    rw [submit_holding] at hline
    simp only at hline
    by_cases hfits : (Sinks.holding (o ++ (s.reply disk line).1.output)
        (e ++ reportOf s.locale (s.reply disk line).1.diagnostics)).Fits lo le
    · rw [if_pos hfits] at hline
      obtain ⟨hall, hfirst⟩ := ih (s.afterLine line) hfits
      rw [hstep, submitAll, hline]
      refine ⟨hall, fun hnot => ?_⟩
      obtain ⟨k, hk, hbefore, hafter, hrun⟩ := hfirst hnot
      refine ⟨k + 1, Nat.succ_lt_succ hk, fun j hj => ?_, ?_, ?_⟩
      · cases j with
        | zero => exact h
        | succ j =>
          rw [List.take_succ_cons, hstep]
          exact hbefore j (Nat.le_of_succ_le_succ hj)
      · rw [List.take_succ_cons, hstep]
        exact hafter
      · rw [List.take_succ_cons, List.take_succ_cons, hstep, hstep]
        exact hrun
    · -- the first line is the one that does not fit
      rw [if_neg hfits] at hline
      rw [hstep, submitAll, hline]
      refine ⟨fun hall => absurd hall.of_submitAll hfits, fun _ => ⟨0, Nat.succ_pos _, fun j hj => ?_,
        ?_, ?_⟩⟩
      · obtain rfl := Nat.le_zero.1 hj
        exact h
      · rw [List.take_succ_cons, hstep]
        exact hfits
      · rw [List.take_succ_cons, hstep]
        rfl

/-! ## Scripts -/

/-- A script whose source does not fail is executed line by line. -/
theorem Session.run_data (disk : Disk) (s : Session) (sinks : Sinks) (script : Bytes) :
    s.run disk sinks { data := script }
      = s.submitAll disk sinks (Source.commandLines { data := script }) := by
  unfold run
  split
  next s' sinks' hrun => rw [hrun]; rfl
  next => rfl

/-- Bytes that fit are held as they are. -/
theorem Sinks.Fits.written_capped {lo le : Nat} {s : Sinks} (h : s.Fits lo le) :
    (s.capped lo le).out.written = s.out.written ∧ (s.capped lo le).err.written = s.err.written :=
  ⟨List.take_of_length_le h.1, List.take_of_length_le h.2⟩

/-- What limited outputs hold after a line that overflows one of them. -/
theorem Sinks.Fits.written_overflown {lo le : Nat} {before : Sinks} (h : before.Fits lo le)
    (after : Sinks) :
    (Sinks.overflown lo le before after).err.written = after.err.written.take le ∧
      (Sinks.overflown lo le before after).out.written
        = if after.err.written.length ≤ le then after.out.written.take lo
          else before.out.written := by
  refine ⟨rfl, ?_⟩
  by_cases herr : after.err.written.length ≤ le
  · simp [overflown, Sink.capped, herr]
  · simp [overflown, Sink.capped, herr, List.take_of_length_le h.1]

/-- Before anything is written, everything fits. -/
theorem Sinks.fits_nil (lo le : Nat) : (holding [] []).Fits lo le :=
  ⟨Nat.zero_le lo, Nat.zero_le le⟩

/-- Fresh limited outputs have been handed nothing. -/
theorem Sinks.capped_nil (lo le : Nat) :
    (holding [] []).capped lo le = ⟨{ limit := some lo }, { limit := some le }⟩ := by
  simp [capped, holding, Sink.capped]

/-- **A run on limited outputs is cut off where they overflow.** It succeeds exactly if everything that
the run writes on unlimited outputs fits, and then the outputs and the session are the same. Otherwise
it fails at the first line at which the bytes written so far do not fit, with the session as that line
leaves it: the diagnostics are cut at the limit, and so is the output, unless the diagnostics have left
none of that line's output to be written. A single line is cut off in the same way, also when it is
executed stage by stage. -/
theorem Session.run_capped (disk : Disk) (s : Session) (script : Bytes) (lo le : Nat) :
    let lines := Source.commandLines { data := script }
    let upTo (k : Nat) := s.submitAll disk {} (lines.take k)
    let whole := s.run disk {} { data := script }
    let limits : Sinks := ⟨{ limit := some lo }, { limit := some le }⟩
    let limited := s.run disk limits { data := script }
    (limited.result = .ok () ↔ whole.sinks.Fits lo le) ∧
    (whole.sinks.Fits lo le → limited.session = whole.session ∧
      limited.sinks.out.written = whole.sinks.out.written ∧
      limited.sinks.err.written = whole.sinks.err.written) ∧
    (¬ whole.sinks.Fits lo le → ∃ k < lines.length,
      (∀ j ≤ k, (upTo j).sinks.Fits lo le) ∧ ¬ (upTo (k + 1)).sinks.Fits lo le ∧
      limited.result = .error .sinkFull ∧ limited.session = (upTo (k + 1)).session ∧
      limited.sinks.err.written = (upTo (k + 1)).sinks.err.written.take le ∧
      limited.sinks.out.written
        = if (upTo (k + 1)).sinks.err.written.length ≤ le then
            (upTo (k + 1)).sinks.out.written.take lo
          else (upTo k).sinks.out.written) ∧
    ∀ line : Text,
      let one := s.submit disk {} line
      let cut := s.submit disk limits line
      cut.session = one.session ∧
      cut.result = (if one.sinks.Fits lo le then one.result else .error .sinkFull) ∧
      cut.sinks.err.written = one.sinks.err.written.take le ∧
      cut.sinks.out.written
        = (if one.sinks.err.written.length ≤ le then one.sinks.out.written.take lo else []) ∧
      s.execute disk limits line = cut := by
  intro lines upTo whole limits limited
  have hlines := s.submitAll_capped disk (Sinks.fits_nil lo le) lines
  have hwhole : whole = s.submitAll disk (.holding [] []) lines := s.run_data disk {} script
  have hlimited : limited = s.submitAll disk ((Sinks.holding [] []).capped lo le) lines := by
    rw [Sinks.capped_nil]
    exact s.run_data disk limits script
  rw [← hwhole, ← hlimited] at hlines
  obtain ⟨hfit, hcut⟩ := hlines
  refine ⟨⟨fun hok => ?_, fun hfits => by rw [hfit hfits]⟩, fun hfits => ?_, fun hnot => ?_,
    fun line => ?_⟩
  · refine Decidable.byContradiction fun hnot => ?_
    obtain ⟨k, -, -, -, hrun⟩ := hcut hnot
    rw [hrun] at hok
    cases hok
  · rw [hfit hfits]
    exact ⟨rfl, hfits.written_capped⟩
  · obtain ⟨k, hk, hbefore, hafter, hrun⟩ := hcut hnot
    refine ⟨k, hk, hbefore, hafter, ?_⟩
    rw [hrun]
    exact ⟨rfl, rfl, (hbefore k (Nat.le_refl k)).written_overflown _⟩
  · have hline := s.submit_capped disk (Sinks.fits_nil lo le) line
    rw [Sinks.capped_nil] at hline
    intro one cut
    have hcut : cut = if one.sinks.Fits lo le then
        ⟨one.session, one.sinks.capped lo le, one.result⟩
      else ⟨one.session, .overflown lo le (.holding [] []) one.sinks, .error .sinkFull⟩ := hline
    by_cases hfits : one.sinks.Fits lo le
    · rw [if_pos hfits] at hcut
      rw [hcut, if_pos hfits, if_pos hfits.2]
      exact ⟨rfl, rfl, rfl, rfl, by rw [← hcut]; exact s.execute_eq_submit disk limits line⟩
    · rw [if_neg hfits] at hcut
      have hwritten := (Sinks.fits_nil lo le).written_overflown one.sinks
      rw [hcut, if_neg hfits]
      exact ⟨rfl, rfl, hwritten.1, hwritten.2, by rw [← hcut]; exact s.execute_eq_submit disk limits line⟩

/-- With room for three bytes of diagnostics, the second of these lines ends the run; what it assigns
stays assigned. -/
theorem Session.run_capped_of_unknown_command :
    let s : Session := { dir := [], locale := .en }
    let disk : Disk := fun _ => .error .notFound
    let script := Text.utf8 "x=1 echo a\ny=2 nope\nx=3 echo b\n".toList
    let lines := Source.commandLines { data := script }
    let limited := s.run disk ⟨{ limit := some 10 }, { limit := some 3 }⟩ { data := script }
    ¬ (s.run disk {} { data := script }).sinks.Fits 10 3 ∧
      (limited.sinks.out.written = Text.utf8 "a\n".toList ∧
        limited.sinks.err.written = Text.utf8 "nop".toList ∧
        limited.session.store = .ofList [(['x'], ['1']), (['y'], ['2'])]) ∧
      ∃ k < lines.length, ¬ (s.submitAll disk {} (lines.take (k + 1))).sinks.Fits 10 3 ∧
        limited.result = .error .sinkFull ∧
        limited.session = (s.submitAll disk {} (lines.take (k + 1))).session := by
  intro s disk script lines limited
  have hnot : ¬ (s.run disk {} { data := script }).sinks.Fits 10 3 := by decide +kernel
  obtain ⟨k, hk, -, hafter, hresult, hsession, -, -⟩ := (s.run_capped disk script 10 3).2.2.1 hnot
  exact ⟨hnot, ⟨by decide +kernel, by decide +kernel, by decide +kernel⟩, k, hk, hafter, hresult,
    hsession⟩

end PipeShell
