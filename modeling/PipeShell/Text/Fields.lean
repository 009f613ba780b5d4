import PipeShell.Text

/-! # Cutting at separators

* **`fields p xs`** — the stretches of `xs` between the elements satisfying `p`; always one more
  than there are such elements.
* **`cutLines`** — bytes cut after each line feed: the terminated lines, and what follows the last
  line feed.
* **`Bytes.lines`** — the lines of an input, an unterminated last one included and no empty line
  after a final line feed.
* **`EndsLine`** — nothing, or bytes with a line feed at their end: what follows begins a line. -/

namespace PipeShell

/-! ## Fields -/

/-- **The stretches between separators.** -/
def fields {α : Type} (p : α → Bool) : List α → List (List α)
  | [] => [[]]
  | x :: xs =>
    if p x then [] :: fields p xs
    else match fields p xs with
      | [] => [[x]]
      | f :: fs => (x :: f) :: fs

@[simp] theorem fields_nil {α : Type} (p : α → Bool) : fields p [] = [[]] := rfl

/-! ## Lines -/

/-- The byte that ends a line. -/
def lineFeed : UInt8 := 0x0A

/-- The byte that may stand before it. -/
def carriageReturn : UInt8 := 0x0D

/-- **Cut after each line feed.** The first component holds the terminated lines without their line
feeds, the second what follows the last one. -/
def cutLines : Bytes → List Bytes × Bytes
  | [] => ([], [])
  | b :: bs =>
    if b = lineFeed then ([] :: (cutLines bs).1, (cutLines bs).2)
    else match cutLines bs with
      | ([], rest) => ([], b :: rest)
      | (l :: ls, rest) => ((b :: l) :: ls, rest)

@[simp] theorem cutLines_nil : cutLines [] = ([], []) := rfl

/-- **The lines of an input**: the terminated ones, then the unterminated rest unless it is empty. -/
def Bytes.lines (bs : Bytes) : List Bytes :=
  match cutLines bs with
  | (ls, []) => ls
  | (ls, rest) => ls ++ [rest]

@[simp] theorem Bytes.lines_nil : Bytes.lines [] = [] := rfl

/-- **Lines with their line feeds**, one after the other. -/
def terminated (ls : List Bytes) : Bytes := ls.flatMap (· ++ [lineFeed])

@[simp] theorem terminated_nil : terminated [] = [] := rfl

@[simp] theorem terminated_cons (l : Bytes) (ls : List Bytes) :
    terminated (l :: ls) = l ++ lineFeed :: terminated ls := by
  simp [terminated]

theorem terminated_append (ls ms : List Bytes) :
    terminated (ls ++ ms) = terminated ls ++ terminated ms := List.flatMap_append

/-- **Every input is some terminated lines and a rest.** -/
theorem exists_terminated (bs : Bytes) :
    ∃ (ls : List Bytes) (rest : Bytes), bs = terminated ls ++ rest ∧ (∀ l ∈ ls, lineFeed ∉ l) ∧
      lineFeed ∉ rest := by
  induction bs with
  | nil => exact ⟨[], [], rfl, by simp, by simp⟩
  | cons b bs ih =>
    obtain ⟨ls, rest, rfl, hls, hrest⟩ := ih
    by_cases hb : b = lineFeed
    · subst hb
      exact ⟨[] :: ls, rest, by simp, by simpa using hls, hrest⟩
    · -- the byte goes to the line that begins after it
      cases ls with
      | nil => exact ⟨[], b :: rest, by simp, by simp, by simp [Ne.symm hb, hrest]⟩
      | cons l ls =>
        obtain ⟨hl, hls⟩ := List.forall_mem_cons.1 hls
        exact ⟨(b :: l) :: ls, rest, by simp,
          List.forall_mem_cons.2 ⟨by simp [Ne.symm hb, hl], hls⟩, hrest⟩

/-- Bytes without a line feed are all rest. -/
theorem cutLines_of_not_mem {bs : Bytes} (h : lineFeed ∉ bs) : cutLines bs = ([], bs) := by
  induction bs with
  | nil => rfl
  | cons b bs ih =>
    obtain ⟨hb, hbs⟩ := not_or.1 (mt List.mem_cons.2 h)
    rw [cutLines, if_neg (Ne.symm hb), ih hbs]

/-- A line is cut off at its line feed. -/
theorem cutLines_append_lineFeed {l : Bytes} (h : lineFeed ∉ l) (bs : Bytes) :
    cutLines (l ++ lineFeed :: bs) = (l :: (cutLines bs).1, (cutLines bs).2) := by
  induction l with
  | nil => rw [List.nil_append, cutLines, if_pos rfl]
  | cons b l ih =>
    obtain ⟨hb, hl⟩ := not_or.1 (mt List.mem_cons.2 h)
    rw [List.cons_append, cutLines, if_neg (Ne.symm hb), ih hl]

/-- **Terminated lines and a rest are cut into just these.** -/
theorem cutLines_terminated {ls : List Bytes} {rest : Bytes} (hls : ∀ l ∈ ls, lineFeed ∉ l)
    (hrest : lineFeed ∉ rest) : cutLines (terminated ls ++ rest) = (ls, rest) := by
  induction ls with
  | nil => exact cutLines_of_not_mem hrest
  | cons l ls ih =>
    obtain ⟨hl, hls⟩ := List.forall_mem_cons.1 hls
    rw [terminated_cons, List.append_assoc, List.cons_append, cutLines_append_lineFeed hl, ih hls]

/-- The lines of an input are the terminated ones, and the rest unless it is empty. -/
theorem Bytes.lines_terminated {ls : List Bytes} {rest : Bytes} (hls : ∀ l ∈ ls, lineFeed ∉ l)
    (hrest : lineFeed ∉ rest) :
    lines (terminated ls ++ rest) = ls ++ if rest = [] then [] else [rest] := by
  rw [lines, cutLines_terminated hls hrest]
  cases rest <;> simp

/-- No line of an input has a line feed. -/
theorem Bytes.lineFeed_not_mem_of_mem_lines {bs line : Bytes} (h : line ∈ bs.lines) :
    lineFeed ∉ line := by
  obtain ⟨ls, rest, rfl, hls, hrest⟩ := exists_terminated bs
  rw [lines_terminated hls hrest] at h
  rcases List.mem_append.1 h with h | h
  · exact hls line h
  · split at h
    · simp at h
    · rwa [List.mem_singleton.1 h]

/-- **Does no line go on after the bytes?** Either there are none, or the last is a line feed. -/
def EndsLine (bs : Bytes) : Prop := bs = [] ∨ bs.getLast? = some lineFeed

instance (bs : Bytes) : Decidable (EndsLine bs) := inferInstanceAs (Decidable (_ ∨ _))

/-- Terminated lines end with a line feed, unless there are none. -/
theorem endsLine_terminated (ls : List Bytes) : EndsLine (terminated ls) := by
  rcases List.eq_nil_or_concat ls with rfl | ⟨init, l, rfl⟩
  · exact .inl rfl
  · exact .inr (by simp [terminated_append])

/-- A rest without a line feed leaves a line open unless it is empty. -/
theorem endsLine_terminated_append_iff {rest : Bytes} (h : lineFeed ∉ rest) (ls : List Bytes) :
    EndsLine (terminated ls ++ rest) ↔ rest = [] := by
  refine ⟨fun hends => ?_, fun hrest => by simpa [hrest] using endsLine_terminated ls⟩
  cases hlast : rest.getLast? with
  | none => exact List.getLast?_eq_none_iff.1 hlast
  | some b =>
    have hmem : b ∈ rest := List.mem_of_getLast? hlast
    rcases hends with hnil | hfeed
    · exact (List.append_eq_nil_iff.1 hnil).2
    · rw [List.getLast?_append, hlast, Option.some_or] at hfeed
      exact absurd (Option.some.inj hfeed ▸ hmem) h

/-- **The lines of two inputs one after the other**, if the second begins with a new line. -/
theorem Bytes.lines_append {as : Bytes} (h : EndsLine as) (bs : Bytes) :
    (as ++ bs).lines = as.lines ++ bs.lines := by
  obtain ⟨ls, rest, rfl, hls, hrest⟩ := exists_terminated as
  obtain rfl := (endsLine_terminated_append_iff hrest ls).1 h
  obtain ⟨ms, rest, rfl, hms, hrest⟩ := exists_terminated bs
  have hboth : ∀ l ∈ ls ++ ms, lineFeed ∉ l := List.forall_mem_append.2 ⟨hls, hms⟩
  have hjoined : terminated ls ++ [] ++ (terminated ms ++ rest) = terminated (ls ++ ms) ++ rest := by
    rw [terminated_append, List.append_nil, List.append_assoc]
  rw [hjoined, lines_terminated hboth hrest, lines_terminated hls List.not_mem_nil,
    lines_terminated hms hrest, if_pos rfl, List.append_nil, List.append_assoc]

/-- A line without the carriage return it may end in; only one is taken off. -/
def dropCarriageReturn (line : Bytes) : Bytes :=
  if line.getLast? = some carriageReturn then line.dropLast else line

/-- Nothing else changes in the line. -/
theorem dropCarriageReturn_subset (line : Bytes) : dropCarriageReturn line ⊆ line := by
  unfold dropCarriageReturn
  split
  · exact List.dropLast_subset line
  · exact List.Subset.refl line

/-! ## Readings at the boundaries -/

example : fields (· == '/') "/a//b".toList = [[], ['a'], [], ['b']] := by decide

example : Bytes.lines [1, 10, 10, 2] = [[1], [], [2]] ∧ Bytes.lines [1, 10] = [[1]] := by decide

example : dropCarriageReturn [1, 13, 13] = [1, 13] := by decide

end PipeShell
