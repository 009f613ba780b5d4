import PipeShell.Command
import PipeShell.Proofs.Resuming

/-! # The windows of a search

A search that shows the lines after a match opens a window at the first line that matches, and the next
one at the first matching line that no window before it covers. `select` counts down the lines of a
window as it goes. Here the windows are found by the numbers of their lines, and the search is also run
as a loop that jumps from the end of one window to the next, with sums that stop at the largest number
of 64 bits.

* **`Opens`** — the lines at which a window opens.
* **`shownFrom`**, **`mem_shownFrom_iff`** — the numbers of the lines that `select` shows: those in a
  window.
* **`windowEnd`**, **`windows`** — the loop that jumps, and `windows_eq`: it shows the same lines.
* **`SearchRequest.printed_windows`** — what is printed of some bytes, line by line. -/

namespace PipeShell

variable {hit : Bytes → Bool} {after : Nat} {lines : List Bytes}

/-! ## Openers -/

/-- **Does a window open at a line?** The line matches, and no window that opens before it covers it. -/
def Opens (hit : Bytes → Bool) (after : Nat) (lines : List Bytes) (i : Nat) : Prop :=
  (∃ line, lines[i]? = some line ∧ hit line = true) ∧
    ∀ k < i, Opens hit after lines k → k + after < i
termination_by i

/-- **Is a line in a window** that opens before line `i`? -/
def CoveredBefore (hit : Bytes → Bool) (after : Nat) (lines : List Bytes) (i j : Nat) : Prop :=
  ∃ k < i, Opens hit after lines k ∧ j ≤ k + after

/-- A window opens at a matching line that is in no window yet. -/
theorem opens_iff {i : Nat} {line : Bytes} (hline : lines[i]? = some line) :
    Opens hit after lines i ↔ hit line = true ∧ ¬ CoveredBefore hit after lines i i := by
  rw [Opens]
  simp only [hline, Option.some.injEq, exists_eq_left', CoveredBefore, not_exists, not_and, Nat.not_le]

/-- One line more that may open a window. -/
theorem coveredBefore_succ {i j : Nat} :
    CoveredBefore hit after lines (i + 1) j ↔
      CoveredBefore hit after lines i j ∨ Opens hit after lines i ∧ j ≤ i + after := by
  simp only [CoveredBefore, Nat.lt_succ_iff_lt_or_eq, or_and_right, exists_or, exists_eq_left]

/-! ## The lines that are shown -/

/-- **The numbers of the lines that `select` shows**, counted from `i`. -/
def shownFrom (hit : Bytes → Bool) (after : Nat) : Nat → Nat → List Bytes → List Nat
  | _, _, [] => []
  | pending + 1, i, _ :: ls => i :: shownFrom hit after pending (i + 1) ls
  | 0, i, l :: ls =>
    if hit l then i :: shownFrom hit after after (i + 1) ls else shownFrom hit after 0 (i + 1) ls

/-- The lines with these numbers are the ones that are selected. -/
theorem map_shownFrom (pending : Nat) (done ls : List Bytes) :
    (shownFrom hit after pending done.length ls).map (fun j => (done ++ ls).getD j [])
      = select hit after pending ls := by
  induction ls generalizing pending done with
  | nil => simp [shownFrom]
  | cons l ls ih =>
    have hhead : (done ++ l :: ls).getD done.length [] = l := by simp
    have hrest (pending : Nat) : (shownFrom hit after pending (done.length + 1) ls).map
        (fun j => (done ++ l :: ls).getD j []) = select hit after pending ls := by
      have hlater := ih pending (done ++ [l])
      rwa [List.length_append, List.length_singleton, List.append_assoc, List.singleton_append] at hlater
    cases pending with
    | succ pending => rw [shownFrom, List.map_cons, hhead, hrest, select_succ]
    | zero =>
      by_cases hl : hit l
      · rw [shownFrom, if_pos hl, List.map_cons, hhead, hrest, select, if_pos hl]
      · rw [shownFrom, if_neg hl, hrest, select, if_neg hl]

/-- No line is shown before the one that is looked at, and lines are shown in order. -/
theorem pairwise_shownFrom (pending i : Nat) (ls : List Bytes) :
    (∀ j ∈ shownFrom hit after pending i ls, i ≤ j) ∧
      (shownFrom hit after pending i ls).Pairwise (· < ·) := by
  induction ls generalizing pending i with
  | nil => simp [shownFrom]
  | cons l ls ih =>
    have hrest (pending : Nat) : ∀ j ∈ shownFrom hit after pending (i + 1) ls, i < j :=
      (ih pending (i + 1)).1
    have hshow (pending : Nat) : (∀ j ∈ i :: shownFrom hit after pending (i + 1) ls, i ≤ j) ∧
        (i :: shownFrom hit after pending (i + 1) ls).Pairwise (· < ·) :=
      ⟨List.forall_mem_cons.2 ⟨Nat.le_refl i, fun j hj => Nat.le_of_lt (hrest pending j hj)⟩,
        List.pairwise_cons.2 ⟨hrest pending, (ih pending (i + 1)).2⟩⟩
    cases pending with
    | succ pending => exact hshow pending
    | zero =>
      rw [shownFrom]
      split
      · exact hshow after
      · exact ⟨fun j hj => Nat.le_of_lt (hrest 0 j hj), (ih 0 (i + 1)).2⟩

/-- **The counter of `select` is right** when it says how far the windows that have been opened reach. -/
def Reaches (hit : Bytes → Bool) (after : Nat) (lines : List Bytes) (pending i : Nat) : Prop :=
  ∀ j, i ≤ j → (CoveredBefore hit after lines i j ↔ j < i + pending)

/-- At the first line no window has been opened. -/
theorem reaches_zero : Reaches hit after lines 0 0 := by
  intro j _
  simp [CoveredBefore]

/-- **A line that is pending opens no window**, and one line less is pending after it. -/
theorem Reaches.pending {pending i : Nat} {line : Bytes} (hline : lines[i]? = some line)
    (h : Reaches hit after lines (pending + 1) i) :
    CoveredBefore hit after lines (i + 1) i ∧ Reaches hit after lines pending (i + 1) := by
  have hcovered : CoveredBefore hit after lines i i := (h i (Nat.le_refl i)).2 (by omega)
  have hopens : ¬ Opens hit after lines i := fun hopens => ((opens_iff hline).1 hopens).2 hcovered
  refine ⟨coveredBefore_succ.2 (.inl hcovered), fun j hj => ?_⟩
  rw [coveredBefore_succ, h j (by omega)]
  simp only [hopens, false_and, or_false]
  omega

/-- **A matching line that is not pending opens a window**, of which the lines after it are pending. -/
theorem Reaches.opening {i : Nat} {line : Bytes} (hline : lines[i]? = some line)
    (hhit : hit line = true) (h : Reaches hit after lines 0 i) :
    CoveredBefore hit after lines (i + 1) i ∧ Reaches hit after lines after (i + 1) := by
  have hopens : Opens hit after lines i :=
    (opens_iff hline).2 ⟨hhit, fun hcovered => absurd ((h i (Nat.le_refl i)).1 hcovered) (by omega)⟩
  refine ⟨coveredBefore_succ.2 (.inr ⟨hopens, by omega⟩), fun j hj => ?_⟩
  rw [coveredBefore_succ, h j (by omega)]
  simp only [hopens, true_and]
  omega

/-- **A line that neither matches nor is pending** is in no window. -/
theorem Reaches.passing {i : Nat} {line : Bytes} (hline : lines[i]? = some line)
    (hhit : ¬ hit line = true) (h : Reaches hit after lines 0 i) :
    ¬ CoveredBefore hit after lines (i + 1) i ∧ Reaches hit after lines 0 (i + 1) := by
  have hopens : ¬ Opens hit after lines i := fun hopens => hhit ((opens_iff hline).1 hopens).1
  have hsame (j : Nat) (hj : i ≤ j) : ¬ CoveredBefore hit after lines (i + 1) j := by
    rw [coveredBefore_succ, h j hj]
    simp only [hopens, false_and, or_false]
    omega
  exact ⟨hsame i (Nat.le_refl i), fun j hj => iff_of_false (hsame j (by omega)) (by omega)⟩

/-- **The lines that are shown are those in a window**: by induction on the lines that are left. -/
theorem mem_shownFrom_iff (done ls : List Bytes) {pending : Nat}
    (h : Reaches hit after (done ++ ls) pending done.length) (j : Nat) :
    j ∈ shownFrom hit after pending done.length ls ↔
      done.length ≤ j ∧ j < (done ++ ls).length ∧ CoveredBefore hit after (done ++ ls) (j + 1) j := by
  induction ls generalizing pending done with
  | nil => simp [shownFrom]; omega
  | cons l ls ih =>
    have hline : (done ++ l :: ls)[done.length]? = some l := by simp
    -- what follows the line is shown as said, from the counter after it
    have hrest {pending : Nat} (h : Reaches hit after (done ++ l :: ls) pending (done.length + 1)) :
        j ∈ shownFrom hit after pending (done.length + 1) ls ↔ done.length + 1 ≤ j ∧
          j < (done ++ l :: ls).length ∧ CoveredBefore hit after (done ++ l :: ls) (j + 1) j := by
      have hlater := @ih (done ++ [l]) pending
      rw [List.length_append, List.length_singleton, List.append_assoc, List.singleton_append] at hlater
      exact hlater h
    have hlength : done.length < (done ++ l :: ls).length := by simp
    have hshow {pending : Nat}
        (h : CoveredBefore hit after (done ++ l :: ls) (done.length + 1) done.length ∧
          Reaches hit after (done ++ l :: ls) pending (done.length + 1)) :
        j ∈ done.length :: shownFrom hit after pending (done.length + 1) ls ↔ done.length ≤ j ∧
          j < (done ++ l :: ls).length ∧ CoveredBefore hit after (done ++ l :: ls) (j + 1) j := by
      rw [List.mem_cons, hrest h.2]
      constructor
      · rintro (rfl | ⟨hj, hrest⟩)
        · exact ⟨Nat.le_refl _, hlength, h.1⟩
        · exact ⟨by omega, hrest⟩
      · rintro ⟨hj, hrest⟩
        rcases Nat.eq_or_lt_of_le hj with rfl | hlt
        · exact .inl rfl
        · exact .inr ⟨hlt, hrest⟩
    cases pending with
    | succ pending => exact hshow (h.pending hline)
    | zero =>
      by_cases hl : hit l = true
      · rw [shownFrom, if_pos hl]
        exact hshow (h.opening hline hl)
      · obtain ⟨hnot, hnext⟩ := h.passing hline hl
        rw [shownFrom, if_neg hl, hrest hnext]
        refine and_congr_left fun hcovered => ⟨by omega, fun hj => ?_⟩
        rcases Nat.eq_or_lt_of_le hj with rfl | hlt
        · exact absurd hcovered.2 hnot
        · exact hlt

/-! ## Jumping from window to window -/

/-- A sum that stops at the largest number of 64 bits. -/
def saturatingSum (a b : Nat) : Nat := min (a + b) (countBound - 1)

/-- **The line after the window** that opens at line `i` of `n`. -/
def windowEnd (after n i : Nat) : Nat := min (saturatingSum (saturatingSum i 1) after) n

/-- The sums stop behind the last line at the earliest, so that they are right however many lines are to
be shown. -/
theorem windowEnd_eq {n i : Nat} (hn : n < countBound) (hi : i < n) (after : Nat) :
    windowEnd after n i = min (i + 1 + after) n := by
  simp only [windowEnd, saturatingSum]
  omega

/-- **Show lines window by window**, from line `i` on: a line that matches is shown with those after it,
and the next line that is looked at is the one behind them. There are fewer lines than numbers of 64
bits, which makes every jump go forward. -/
def windows (hit : Bytes → Bool) (after : Nat) (lines : List Bytes) (h : lines.length < countBound)
    (i : Nat) : List Bytes :=
  if hi : i < lines.length then
    if hit lines[i] then
      (lines.take (windowEnd after lines.length i)).drop i
        ++ windows hit after lines h (windowEnd after lines.length i)
    else windows hit after lines h (i + 1)
  else []
termination_by lines.length - i
decreasing_by
  · rw [windowEnd_eq h hi]
    omega
  · omega

/-- The lines of a window, and those behind it. -/
theorem take_drop_windowEnd (h : lines.length < countBound) {i : Nat} (hi : i < lines.length)
    (after : Nat) :
    (lines.take (windowEnd after lines.length i)).drop i = (lines.drop i).take (after + 1) ∧
      lines.drop (windowEnd after lines.length i) = (lines.drop i).drop (after + 1) := by
  rw [windowEnd_eq h hi, List.drop_take, List.take_eq_take_iff, List.drop_drop, List.length_drop]
  refine ⟨by omega, ?_⟩
  rcases Nat.le_total (i + 1 + after) lines.length with hle | hle
  · rw [Nat.min_eq_left hle, Nat.add_right_comm, Nat.add_assoc]
  · rw [Nat.min_eq_right hle, List.drop_length, List.drop_eq_nil_of_le (by omega)]

/-- **Jumping over windows shows what counting them down shows.** -/
theorem windows_eq (h : lines.length < countBound) (i : Nat) :
    windows hit after lines h i = select hit after 0 (lines.drop i) := by
  fun_induction windows hit after lines h i with
  | case1 i hi hhit ih =>
    obtain ⟨hwindow, hbehind⟩ := take_drop_windowEnd h hi after
    rw [ih, hwindow, hbehind, List.drop_eq_getElem_cons hi, select, if_pos hhit,
      select_eq_take_append hit after after, List.take_succ_cons, List.drop_succ_cons, List.cons_append]
  | case2 i hi hhit ih => rw [ih, List.drop_eq_getElem_cons hi, select, if_neg hhit]
  | case3 i hi => rw [List.drop_eq_nil_of_le (Nat.not_lt.1 hi), select_nil]

/-! ## What is printed -/

/-- **A search prints the windows of its matches, line by line.** Take the lines of some bytes: the
pieces between the line feeds, without the empty one after a final line feed. The lines that are printed are
those from a line at which a window opens to so many lines after it, in order and each of them once,
behind the label if there is one and with one line feed at their end. Every line that matches is among
them. A loop that jumps from window to window with sums that stop at the largest number of 64 bits
prints the same, however many lines are to be shown after a match. -/
theorem SearchRequest.printed_windows (r : SearchRequest) (label : Option Text) (data : Bytes) :
    let lines := if EndsLine data then (data.splitOn lineFeed).dropLast else data.splitOn lineFeed
    let hit := matchesLine r.options.mode r.pattern
    let after := r.options.after
    let front : Bytes := match label with
      | none => []
      | some name => name.utf8 ++ Text.utf8 [':']
    ∃ shown : List Nat,
      r.printed label data = shown.flatMap (fun j => front ++ lines.getD j [] ++ [lineFeed]) ∧
      shown.Pairwise (· < ·) ∧
      (∀ j, j ∈ shown ↔
        j < lines.length ∧ ∃ i, Opens hit after lines i ∧ i ≤ j ∧ j ≤ i + after) ∧
      (∀ j line, lines[j]? = some line → hit line = true → j ∈ shown) ∧
      ∀ h : lines.length < countBound,
        (windows hit after lines h 0).flatMap (printedLine label) = r.printed label data := by
  intro lines hit after front
  have hprinted : r.printed label data = (select hit after 0 lines).flatMap (printedLine label) := by
    rw [SearchRequest.printed, PipeShell.printed, Bytes.lines_eq_splitOn]
  have hlabel (line : Bytes) : printedLine label line = front ++ line ++ [lineFeed] := by
    cases label <;> rfl
  have hmem (j : Nat) : j ∈ shownFrom hit after 0 0 lines ↔
      j < lines.length ∧ ∃ i, Opens hit after lines i ∧ i ≤ j ∧ j ≤ i + after := by
    have hshown := mem_shownFrom_iff [] lines (reaches_zero : Reaches hit after lines 0 0) j
    simpa [CoveredBefore, Nat.lt_succ_iff, and_left_comm] using hshown
  refine ⟨shownFrom hit after 0 0 lines, ?_, (pairwise_shownFrom 0 0 lines).2, hmem,
    fun j line hline hhit => ?_, fun h => by rw [hprinted, windows_eq, List.drop_zero]⟩
  · rw [hprinted, ← map_shownFrom 0 [] lines, List.flatMap_map]
    simp only [hlabel, List.nil_append, List.length_nil]
  · -- a matching line opens a window unless it is in one already
    obtain ⟨hj, -⟩ := List.getElem?_eq_some_iff.1 hline
    refine (hmem j).2 ⟨hj, ?_⟩
    by_cases hcovered : CoveredBefore hit after lines j j
    · obtain ⟨i, hi, hopens, hle⟩ := hcovered
      exact ⟨i, hopens, Nat.le_of_lt hi, hle⟩
    · exact ⟨j, (opens_iff hline).2 ⟨hhit, hcovered⟩, Nat.le_refl j, Nat.le_add_right j after⟩

/-- The window of the first match reaches to the end of the input, the last line of which matches as well
and has no line feed; as many lines are to be shown as can be asked for. -/
theorem SearchRequest.printed_windows_of_largest_count :
    let r : SearchRequest := ⟨{ after := countBound - 1 }, "hit".toList, []⟩
    let data := Text.utf8 "miss\nhit\nrest\nhit".toList
    let lines := if EndsLine data then (data.splitOn lineFeed).dropLast else data.splitOn lineFeed
    parseCount "18446744073709551615".toList = some (countBound - 1) ∧
      r.printed (some "f".toList) data = Text.utf8 "f:hit\nf:rest\nf:hit\n".toList ∧
      lines[3]? = some (Text.utf8 "hit".toList) ∧
      (∃ shown : List Nat, shown.Pairwise (· < ·) ∧ 3 ∈ shown ∧
        r.printed (some "f".toList) data
          = shown.flatMap fun j =>
              Text.utf8 ['f'] ++ Text.utf8 [':'] ++ lines.getD j [] ++ [lineFeed]) ∧
      ∃ h : lines.length < countBound,
        (windows (matchesLine {} "hit".toList) (countBound - 1) lines h 0).flatMap
            (printedLine (some "f".toList))
          = r.printed (some "f".toList) data := by
  intro r data lines
  obtain ⟨shown, hprinted, hsorted, -, hmatch, hwindows⟩ := r.printed_windows (some "f".toList) data
  have hlast : lines[3]? = some (Text.utf8 "hit".toList) := by decide +kernel
  have hlength : lines.length < countBound := by decide +kernel
  refine ⟨by decide +kernel, by decide +kernel, hlast, ⟨shown, hsorted, ?_, hprinted⟩, hlength,
    hwindows hlength⟩
  exact hmatch 3 _ hlast (by decide +kernel)

end PipeShell
