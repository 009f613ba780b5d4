/-! # White space

The Unicode property `White_Space`, as a list of closed code point ranges. Words of a command line
end at these characters, and only at these. -/

namespace PipeShell

/-- A list of closed ranges of code points. -/
abbrev CodeRanges := List (Nat × Nat)

/-- Does the character lie in one of the ranges? -/
def CodeRanges.contains (rs : CodeRanges) (c : Char) : Bool :=
  rs.any fun r => r.1 ≤ c.toNat && c.toNat ≤ r.2

/-- Membership in a list of ranges, spelled out. -/
theorem CodeRanges.contains_iff (rs : CodeRanges) (c : Char) :
    rs.contains c = true ↔ ∃ r ∈ rs, r.1 ≤ c.toNat ∧ c.toNat ≤ r.2 := by
  simp [CodeRanges.contains]

/-- **The code points with the property `White_Space`.** -/
def whiteSpaceRanges : CodeRanges := [
  (0x0009, 0x000D), (0x0020, 0x0020), (0x0085, 0x0085), (0x00A0, 0x00A0), (0x1680, 0x1680),
  (0x2000, 0x200A), (0x2028, 0x2029), (0x202F, 0x202F), (0x205F, 0x205F), (0x3000, 0x3000)]

/-- **Is the character white space?** -/
def isWhiteSpace (c : Char) : Bool := whiteSpaceRanges.contains c

/-- The characters that the shell reads as operators or quotes are not white space. -/
theorem isWhiteSpace_special :
    isWhiteSpace '|' = false ∧ isWhiteSpace '\'' = false ∧ isWhiteSpace '"' = false ∧
      isWhiteSpace '=' = false ∧ isWhiteSpace '$' = false := by
  decide

example : isWhiteSpace ' ' = true ∧ isWhiteSpace '\u3000' = true ∧ isWhiteSpace '\u200b' = false := by
  decide

end PipeShell
