/-! # Cutting and joining lists

`List.splitOnP` cuts a list at separators and `List.intercalate` joins lists with one; the other
modules read lines and print them that way. -/

namespace PipeShell

variable {α β : Type}

/-! ## Joining -/

/-- Joining puts the separator before every list but the first. -/
theorem intercalate_cons (sep l : List α) (ls : List (List α)) :
    sep.intercalate (l :: ls) = l ++ ls.flatMap (sep ++ ·) := by
  induction ls generalizing l with
  | nil => simp
  | cons m ls ih => rw [List.intercalate_cons_cons, ih, List.flatMap_cons, List.append_assoc,
      List.append_assoc]

/-- What is joined is either a separator or in one of the lists. -/
theorem of_mem_intercalate {sep : List α} {ls : List (List α)} {x : α}
    (h : x ∈ sep.intercalate ls) : x ∈ sep ∨ ∃ l ∈ ls, x ∈ l := by
  cases ls with
  | nil => simp at h
  | cons l ls =>
    rw [intercalate_cons, List.mem_append, List.mem_flatMap] at h
    rcases h with h | ⟨m, hm, h⟩
    · exact .inr ⟨l, List.mem_cons_self, h⟩
    · exact (List.mem_append.1 h).imp id fun h => ⟨m, List.mem_cons_of_mem l hm, h⟩

/-- Joining commutes with replacing every element by a list. -/
theorem flatMap_intercalate (f : α → List β) (sep : List α) (ls : List (List α)) :
    (sep.intercalate ls).flatMap f = (sep.flatMap f).intercalate (ls.map (·.flatMap f)) := by
  cases ls with
  | nil => rfl
  | cons l ls =>
    rw [List.map_cons, intercalate_cons, intercalate_cons, List.flatMap_append, List.flatMap_assoc,
      List.flatMap_map]
    simp only [List.flatMap_append]

/-! ## Cutting -/

/-- Cutting leaves what precedes the first cut in front. -/
theorem splitOnP_append {p : α → Bool} {xs : List α} (h : ∀ x ∈ xs, p x = false) (ys : List α) :
    (xs ++ ys).splitOnP p = (ys.splitOnP p).modifyHead (xs ++ ·) := by
  induction xs with
  | nil => cases hy : ys.splitOnP p <;> simp [hy]
  | cons x xs ih =>
    obtain ⟨hx, hxs⟩ := List.forall_mem_cons.1 h
    rw [List.cons_append, List.splitOnP_cons_eq_if_modifyHead, if_neg (by simp [hx]), ih hxs]
    cases ys.splitOnP p <;> simp

/-- What stands between cuts is part of the whole and holds nothing that is cut at. -/
theorem of_mem_splitOnP {p : α → Bool} {xs ys : List α} (h : ys ∈ xs.splitOnP p) {x : α}
    (hx : x ∈ ys) : x ∈ xs ∧ p x = false := by
  induction xs generalizing ys with
  | nil =>
    rw [List.splitOnP_nil, List.mem_singleton] at h
    simp [h] at hx
  | cons y xs ih =>
    rw [List.splitOnP_cons_eq_if_modifyHead] at h
    split at h
    next hy =>
      rcases List.mem_cons.1 h with rfl | h
      · simp at hx
      · exact ⟨List.mem_cons_of_mem y (ih h hx).1, (ih h hx).2⟩
    next hy =>
      -- `y` is put before the first piece of `xs`, and the other pieces are those of `xs`
      obtain ⟨z, zs, hz⟩ := List.exists_cons_of_ne_nil (List.splitOnP_ne_nil p xs)
      rw [hz] at ih h
      rcases List.mem_cons.1 h with rfl | h
      · rcases List.mem_cons.1 hx with rfl | hx
        · exact ⟨List.mem_cons_self, by simpa using hy⟩
        · exact ⟨List.mem_cons_of_mem y (ih List.mem_cons_self hx).1, (ih List.mem_cons_self hx).2⟩
      · have hmem := ih (List.mem_cons_of_mem z h) hx
        exact ⟨List.mem_cons_of_mem y hmem.1, hmem.2⟩

end PipeShell
