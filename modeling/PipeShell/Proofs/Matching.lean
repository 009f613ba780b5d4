import PipeShell.Proofs.Encoding
import PipeShell.Search.Match
import PipeShell.Text.Fields

/-! # Where a pattern occurs

A search reads the pieces of a line from left to right. Here it is compared with the bytes of the line:
a line matches if the pattern stands somewhere in it, at any place and among any other bytes. No
character of the pattern has a meaning of its own.

* **`Bytes.pieces_append_utf8`** — the bytes around an encoded text are read as they are on their own.
* **`containsPattern_iff`** — what the search finds, in pieces.
* **`IsOccurrence`**, **`StandsAlone`** — what it finds, in bytes; `matchesLine_iff`.
* **`Expression`** — the search as an expression to be matched: `expressionFor`, and
  `foundIn_expressionFor_iff`.
* **`matchesLine_literal`** — which lines match. -/

namespace PipeShell

/-! ## Reading bytes in parts -/

/-- A byte that goes on with no character goes on with none that a given byte begins. -/
theorem continuesLead_of_not_isContinuation {lead b : UInt8} (h : isContinuation b = false) :
    continuesLead lead b = false := by
  refine Bool.eq_false_iff.2 fun hlead => ?_
  rw [isContinuation_iff.2 (continuesLead_iff.1 hlead).1] at h
  cases h

/-- **A byte that goes on with no character is read afresh**, whatever stands before it. -/
theorem Bytes.pieces_append_cons {b : UInt8} (h : isContinuation b = false) (as bs : Bytes) :
    pieces (as ++ b :: bs) = pieces as ++ pieces (b :: bs) := by
  have hlead (a : UInt8) : continuesLead a b = false := continuesLead_of_not_isContinuation h
  -- one case for each place where the reading can stop or go on; where it stops inside a character,
  -- the byte breaks the character off
  fun_induction pieces as with
  | case1 => rfl
  | case2 a rest h1 ih => rw [List.cons_append, pieces.eq_def]; simp [h1, ih]
  | case3 a rest h1 h0 ih => rw [List.cons_append, pieces.eq_def]; simp [h0, ih]
  | case4 a h1 h0 => rw [List.cons_append, pieces.eq_def]; simp [h1, h0, hlead]
  | case5 a h1 h0 c rest hc ih => rw [List.cons_append, pieces.eq_def]; simp [h1, h0, hc, ← ih]
  | case6 a h1 h0 c rest hc h2 ih => rw [List.cons_append, pieces.eq_def]; simp [h2, hc, ih]
  | case7 a h1 h0 c hc h2 => rw [List.cons_append, pieces.eq_def]; simp [h1, h0, hc, h2, h]
  | case8 a h1 h0 c hc h2 d rest hd ih =>
    rw [List.cons_append, pieces.eq_def]; simp [h1, h0, h2, hc, hd, ← ih]
  | case9 a h1 h0 c hc h2 d rest hd h3 ih =>
    rw [List.cons_append, pieces.eq_def]; simp [h3, hc, hd, ih]
  | case10 a h1 h0 c hc h2 d hd h3 =>
    rw [List.cons_append, pieces.eq_def]; simp [h1, h0, hc, h2, hd, h3, h]
  | case11 a h1 h0 c hc h2 d hd h3 e rest he ih =>
    rw [List.cons_append, pieces.eq_def]; simp [h1, h0, h2, h3, hc, hd, he, ← ih]
  | case12 a h1 h0 c hc h2 d hd h3 e rest he ih =>
    rw [List.cons_append, pieces.eq_def]; simp [h1, h0, h2, h3, hc, hd, he, ih]

/-- The first byte of a character goes on with no other one. -/
theorem Encoded.exists_cons {x : Char} {bs : Bytes} (h : Encoded x bs) :
    ∃ b rest, bs = b :: rest ∧ isContinuation b = false := by
  have hfirst {b : UInt8} (hb : encodedLength b ≠ 0) : isContinuation b = false := by
    refine Bool.eq_false_iff.2 fun hcontinues => ?_
    have hrange := isContinuation_iff.1 hcontinues
    have hcases := encodedLength_cases b
    omega
  cases h with
  | one ha => exact ⟨_, _, rfl, hfirst (by omega)⟩
  | two ha hb => exact ⟨_, _, rfl, hfirst (by omega)⟩
  | three ha hb hc => exact ⟨_, _, rfl, hfirst (by omega)⟩
  | four ha hb hc hd => exact ⟨_, _, rfl, hfirst (by omega)⟩

/-- **A character is read wherever its encoding stands.** -/
theorem Bytes.pieces_append_char (as : Bytes) (c : Char) (bs : Bytes) :
    pieces (as ++ (String.utf8EncodeChar c ++ bs)) = pieces as ++ .char c :: pieces bs := by
  have hread := (encoded_utf8EncodeChar c).pieces_append bs
  obtain ⟨b, rest, hbytes, hb⟩ := (encoded_utf8EncodeChar c).exists_cons
  rw [hbytes, List.cons_append] at hread ⊢
  rw [pieces_append_cons hb, hread]

/-- **A text is read wherever its encoding stands**, and the bytes around it are read as they are on
their own. The empty text is no such mark between them. -/
theorem Bytes.pieces_append_utf8 {t : Text} (h : t ≠ []) (as bs : Bytes) :
    pieces (as ++ t.utf8 ++ bs) = pieces as ++ t.map .char ++ pieces bs := by
  induction t generalizing as with
  | nil => exact absurd rfl h
  | cons c t ih =>
    have hfirst : pieces (as ++ Text.utf8 (c :: t) ++ bs)
        = pieces as ++ .char c :: pieces (Text.utf8 t ++ bs) := by
      rw [Text.utf8_cons, List.append_assoc, List.append_assoc, pieces_append_char]
    by_cases ht : t = []
    · rw [hfirst, ht]
      simp
    · have hrest := ih ht []
      rw [List.nil_append, pieces_nil, List.nil_append] at hrest
      rw [hfirst, hrest]
      simp

/-! ## What the search finds -/

/-- **Are two texts the same** character by character? Without regard to case, characters are the same
if their simple foldings are. -/
def SameText (ignoreCase : Bool) (s t : Text) : Prop :=
  if ignoreCase then s.map foldCase = t.map foldCase else s = t

@[simp] theorem sameText_nil_left {ignoreCase : Bool} {t : Text} :
    SameText ignoreCase [] t ↔ t = [] := by
  cases ignoreCase <;> simp [SameText, eq_comm]

@[simp] theorem sameText_nil_right {ignoreCase : Bool} {s : Text} :
    SameText ignoreCase s [] ↔ s = [] := by
  cases ignoreCase <;> simp [SameText]

/-- Texts are the same if their first characters and their rests are. -/
theorem sameText_cons_left {m : MatchMode} {c : Char} {s t : Text} :
    SameText m.ignoreCase (c :: s) t ↔
      ∃ d u, t = d :: u ∧ m.sameChar c d = true ∧ SameText m.ignoreCase s u := by
  cases t with
  | nil => cases m.ignoreCase <;> simp [SameText]
  | cons d u =>
    have hcons : SameText m.ignoreCase (c :: s) (d :: u) ↔
        m.sameChar c d = true ∧ SameText m.ignoreCase s u := by
      cases hcase : m.ignoreCase <;> simp [SameText, MatchMode.sameChar, hcase]
    rw [hcons]
    constructor
    · intro h
      exact ⟨d, u, rfl, h⟩
    · rintro ⟨_, _, heq, h⟩
      cases heq
      exact h

/-- A pattern goes on where its first character is found. -/
theorem afterPattern?_cons_eq_some_iff {m : MatchMode} {c : Char} {cs : Text}
    {ps rest : List Piece} :
    afterPattern? m (c :: cs) ps = some rest ↔
      ∃ d qs, ps = .char d :: qs ∧ m.sameChar c d = true ∧ afterPattern? m cs qs = some rest := by
  cases ps with
  | nil => simp [afterPattern?]
  | cons p ps =>
    cases p with
    | stray bytes => simp [afterPattern?]
    | char d => simp [afterPattern?, and_assoc]

/-- What follows the pattern follows a text that is the same. -/
theorem afterPattern?_eq_some_iff {m : MatchMode} {pattern : Text} {ps rest : List Piece} :
    afterPattern? m pattern ps = some rest ↔
      ∃ t, SameText m.ignoreCase pattern t ∧ ps = t.map .char ++ rest := by
  induction pattern generalizing ps with
  | nil => simp [afterPattern?]
  | cons c cs ih =>
    simp only [afterPattern?_cons_eq_some_iff, ih, sameText_cons_left]
    constructor
    · rintro ⟨d, _, rfl, hsame, t, ht, rfl⟩
      exact ⟨d :: t, ⟨d, t, rfl, hsame, ht⟩, rfl⟩
    · rintro ⟨_, ⟨d, t, rfl, hsame, ht⟩, rfl⟩
      exact ⟨d, t.map .char ++ rest, rfl, hsame, t, ht, rfl⟩

/-- Can an occurrence begin behind some pieces? If there are none, it can if the place is free. -/
def MatchMode.openAfter (m : MatchMode) (free : Bool) (front : List Piece) : Bool :=
  front.getLast?.elim free m.separates

/-- Can an occurrence end in front of some pieces? -/
def MatchMode.openBefore (m : MatchMode) (rest : List Piece) : Bool := rest.head?.all m.separates

theorem MatchMode.openAfter_cons (m : MatchMode) (free : Bool) (p : Piece) (front : List Piece) :
    m.openAfter free (p :: front) = m.openAfter (m.separates p) front := by
  rw [openAfter, openAfter, List.getLast?_cons]
  cases front.getLast? <;> rfl

/-- The pattern occurs at the start if a text that is the same stands there, and it can end. -/
theorem occursHere_iff {m : MatchMode} {pattern : Text} {ps : List Piece} :
    occursHere m pattern ps = true ↔ ∃ t rest, ps = t.map .char ++ rest ∧
      SameText m.ignoreCase pattern t ∧ m.openBefore rest = true := by
  have hopen : occursHere m pattern ps = true ↔
      ∃ rest, afterPattern? m pattern ps = some rest ∧ m.openBefore rest = true := by
    unfold occursHere
    split
    next hnone => simp [hnone]
    next hsome => simp [hsome, MatchMode.openBefore]
    next p rest hsome => simp [hsome, MatchMode.openBefore]
  simp only [hopen, afterPattern?_eq_some_iff]
  constructor
  · rintro ⟨rest, ⟨t, ht, hps⟩, hrest⟩
    exact ⟨t, rest, hps, ht, hrest⟩
  · rintro ⟨t, rest, hps, ht, hrest⟩
    exact ⟨rest, ⟨t, ht, hps⟩, hrest⟩

/-- **What the search finds**, by induction on the places to be tried: a text that is the same as the
pattern, with an open place before it and one after it. -/
theorem containsPattern_iff {m : MatchMode} {pattern : Text} {free : Bool} {ps : List Piece} :
    containsPattern m pattern free ps = true ↔ ∃ front t rest, ps = front ++ t.map .char ++ rest ∧
      SameText m.ignoreCase pattern t ∧ m.openAfter free front = true ∧ m.openBefore rest = true := by
  induction ps generalizing free with
  | nil =>
    rw [containsPattern, Bool.and_eq_true, occursHere_iff]
    constructor
    · rintro ⟨hfree, t, rest, hps, ht, hrest⟩
      exact ⟨[], t, rest, hps, ht, hfree, hrest⟩
    · rintro ⟨front, t, rest, hps, ht, hfront, hrest⟩
      obtain ⟨rfl, rfl, rfl⟩ : front = [] ∧ t = [] ∧ rest = [] := by simpa using hps
      exact ⟨hfront, [], [], rfl, ht, hrest⟩
  | cons p ps ih =>
    rw [containsPattern, Bool.or_eq_true, Bool.and_eq_true, occursHere_iff, ih]
    constructor
    · rintro (⟨hfree, t, rest, hps, ht, hrest⟩ | ⟨front, t, rest, rfl, ht, hfront, hrest⟩)
      · exact ⟨[], t, rest, hps, ht, hfree, hrest⟩
      · exact ⟨p :: front, t, rest, rfl, ht, by rwa [MatchMode.openAfter_cons], hrest⟩
    · rintro ⟨front, t, rest, hps, ht, hfront, hrest⟩
      cases front with
      | nil => exact .inl ⟨hfront, t, rest, hps, ht, hrest⟩
      | cons q front =>
        obtain ⟨rfl, rfl⟩ := List.cons.inj hps
        rw [MatchMode.openAfter_cons] at hfront
        exact .inr ⟨front, t, rest, rfl, ht, hfront, hrest⟩

/-! ## Occurrences in a line -/

/-- **Are some bytes an occurrence of a pattern?** They are its encoding or, without regard to case,
that of a text with the same foldings. -/
def IsOccurrence (ignoreCase : Bool) (pattern : Text) (here : Bytes) : Prop :=
  ∃ t, SameText ignoreCase pattern t ∧ here = t.utf8

/-- **Does a word stand alone** between some bytes? On both sides the line ends, or a character that is
no word character stands there. -/
def StandsAlone (before after : Bytes) : Prop :=
  (before = [] ∨ ∃ front c, before = front ++ String.utf8EncodeChar c ∧ isWordCharacter c = false) ∧
    (after = [] ∨ ∃ c rest, after = String.utf8EncodeChar c ++ rest ∧ isWordCharacter c = false)

/-- Unless whole words are asked for, every place is open. -/
theorem MatchMode.separates_of_not_wholeWords {m : MatchMode} (h : m.wholeWords = false)
    (p : Piece) : m.separates p = true := by
  cases p <;> simp [separates, h]

/-- If they are, a place is open beside a character that is no word character. -/
theorem MatchMode.separates_iff {m : MatchMode} (h : m.wholeWords = true) {p : Piece} :
    m.separates p = true ↔ ∃ c, p = .char c ∧ isWordCharacter c = false := by
  cases p <;> simp [separates, h]

/-- **An occurrence in pieces is one in bytes.** -/
theorem standsAlone_of_open {m : MatchMode} (hwords : m.wholeWords = true) {front rest : List Piece}
    (hfront : m.openAfter true front = true) (hrest : m.openBefore rest = true) :
    StandsAlone (front.flatMap Piece.bytes) (rest.flatMap Piece.bytes) := by
  constructor
  · rcases List.eq_nil_or_concat front with rfl | ⟨front, p, rfl⟩
    · exact .inl rfl
    · have hlast : m.separates p = true := by simpa [MatchMode.openAfter] using hfront
      obtain ⟨c, rfl, hc⟩ := (MatchMode.separates_iff hwords).1 hlast
      exact .inr ⟨front.flatMap Piece.bytes, c, by simp [Piece.bytes], hc⟩
  · cases rest with
    | nil => exact .inl rfl
    | cons p rest =>
      have hnext : m.separates p = true := by simpa [MatchMode.openBefore] using hrest
      obtain ⟨c, rfl, hc⟩ := (MatchMode.separates_iff hwords).1 hnext
      exact .inr ⟨c, rest.flatMap Piece.bytes, rfl, hc⟩

/-- **An occurrence in bytes is one in pieces**: what stands alone is read apart from what stands
around it, even if it is empty. -/
theorem StandsAlone.pieces_eq {before after : Bytes} (h : StandsAlone before after) (t : Text) :
    Bytes.pieces (before ++ t.utf8 ++ after)
      = Bytes.pieces before ++ t.map .char ++ Bytes.pieces after := by
  by_cases ht : t = []
  · -- the empty text keeps nothing apart; the character before it does
    rcases h.1 with rfl | ⟨front, c, rfl, -⟩
    · simp [ht]
    · have hfront := Bytes.pieces_append_char front c []
      have hall := Bytes.pieces_append_char front c after
      rw [List.append_nil, Bytes.pieces_nil] at hfront
      simp [ht, hfront, hall]
  · exact Bytes.pieces_append_utf8 ht before after

/-- What stands alone has an open place before it and one after it. -/
theorem StandsAlone.isOpen {before after : Bytes} (h : StandsAlone before after) (m : MatchMode) :
    m.openAfter true (Bytes.pieces before) = true ∧ m.openBefore (Bytes.pieces after) = true := by
  have hsep {c : Char} (hc : isWordCharacter c = false) : m.separates (.char c) = true := by
    simp [MatchMode.separates, hc]
  constructor
  · rcases h.1 with rfl | ⟨front, c, rfl, hc⟩
    · rfl
    · have hfront := Bytes.pieces_append_char front c []
      rw [List.append_nil, Bytes.pieces_nil] at hfront
      simp [hfront, MatchMode.openAfter, hsep hc]
  · rcases h.2 with rfl | ⟨c, rest, rfl, hc⟩
    · rfl
    · have hrest := Bytes.pieces_append_char [] c rest
      rw [List.nil_append, Bytes.pieces_nil, List.nil_append] at hrest
      simp [hrest, MatchMode.openBefore, hsep hc]

/-- **A line matches if the pattern occurs in it**, and stands alone there if whole words are asked
for. -/
theorem matchesLine_iff {m : MatchMode} {pattern : Text} {line : Bytes} :
    matchesLine m pattern line = true ↔ ∃ before here after, line = before ++ here ++ after ∧
      IsOccurrence m.ignoreCase pattern here ∧ (m.wholeWords = true → StandsAlone before after) := by
  constructor
  · intro h
    obtain ⟨front, t, rest, hpieces, ht, hfront, hrest⟩ := containsPattern_iff.1 h
    refine ⟨front.flatMap Piece.bytes, t.utf8, rest.flatMap Piece.bytes, ?_, ⟨t, ht, rfl⟩,
      fun hwords => standsAlone_of_open hwords hfront hrest⟩
    have htext : (t.map Piece.char).flatMap Piece.bytes = t.utf8 := List.flatMap_map ..
    rw [← Bytes.flatMap_bytes_pieces line, hpieces, List.flatMap_append, List.flatMap_append, htext]
  · rintro ⟨before, here, after, rfl, ⟨t, ht, rfl⟩, hwords⟩
    cases hm : m.wholeWords with
    | true =>
      have halone := hwords hm
      obtain ⟨hbefore, hafter⟩ := halone.isOpen m
      exact containsPattern_iff.2 ⟨_, t, _, halone.pieces_eq t, ht, hbefore, hafter⟩
    | false =>
      have hopen := MatchMode.separates_of_not_wholeWords hm
      by_cases hnil : t = []
      · -- only the empty pattern is the same as the empty text, and it is found everywhere
        rw [hnil, sameText_nil_right] at ht
        rw [ht]
        exact matchesLine_nil m hm _
      · refine containsPattern_iff.2
          ⟨_, t, _, Bytes.pieces_append_utf8 hnil before after, ht, ?_, ?_⟩
        · rw [MatchMode.openAfter]
          cases (Bytes.pieces before).getLast? with
          | none => rfl
          | some p => exact hopen p
        · rw [MatchMode.openBefore]
          cases (Bytes.pieces after).head? with
          | none => rfl
          | some p => exact hopen p

/-! ## The search as an expression -/

/-- **An expression to be matched** with a part of a line. -/
inductive Expression where
  /-- A text, each of its characters standing for itself. -/
  | literal (t : Text)
  /-- Nothing, at the start of the line. -/
  | atStart
  /-- Nothing, at the end of the line. -/
  | atEnd
  /-- A character that is no word character. -/
  | nonWord
  | either (a b : Expression)
  | followedBy (a b : Expression)

/-- **Does an expression match the bytes between some others?** -/
def Expression.Spans (ignoreCase : Bool) : Expression → Bytes → Bytes → Bytes → Prop
  | .literal t, _, here, _ => IsOccurrence ignoreCase t here
  | .atStart, before, here, _ => here = [] ∧ before = []
  | .atEnd, _, here, after => here = [] ∧ after = []
  | .nonWord, _, here, _ => ∃ c, here = String.utf8EncodeChar c ∧ isWordCharacter c = false
  | .either a b, before, here, after =>
    a.Spans ignoreCase before here after ∨ b.Spans ignoreCase before here after
  | .followedBy a b, before, here, after =>
    ∃ first second, here = first ++ second ∧ a.Spans ignoreCase before first (second ++ after) ∧
      b.Spans ignoreCase (before ++ first) second after

/-- **Is an expression found in a line?** -/
def Expression.FoundIn (ignoreCase : Bool) (e : Expression) (line : Bytes) : Prop :=
  ∃ before here after, line = before ++ here ++ after ∧ e.Spans ignoreCase before here after

/-- **The expression for a search.** For whole words it takes in the characters beside the pattern. -/
def expressionFor (m : MatchMode) (pattern : Text) : Expression :=
  if m.wholeWords then
    .followedBy (.either .atStart .nonWord)
      (.followedBy (.literal pattern) (.either .nonWord .atEnd))
  else .literal pattern

/-- **The expression is found where the pattern occurs**, and stands alone if whole words are asked for:
one of its places is then moved by the character beside it. -/
theorem foundIn_expressionFor_iff {m : MatchMode} {pattern : Text} {line : Bytes} :
    (expressionFor m pattern).FoundIn m.ignoreCase line ↔
      ∃ before here after, line = before ++ here ++ after ∧
        IsOccurrence m.ignoreCase pattern here ∧ (m.wholeWords = true → StandsAlone before after) := by
  cases hm : m.wholeWords with
  | false => simp [expressionFor, hm, Expression.FoundIn, Expression.Spans]
  | true =>
    simp only [expressionFor, hm, if_true, Expression.FoundIn, Expression.Spans, forall_const]
    constructor
    · rintro ⟨before, _, after, rfl, left, _, rfl, hleft, here, right, rfl, hhere, hright⟩
      refine ⟨before ++ left, here, right ++ after, by simp, hhere, ?_, ?_⟩
      · rcases hleft with ⟨rfl, rfl⟩ | ⟨c, rfl, hc⟩
        · exact .inl rfl
        · exact .inr ⟨before, c, rfl, hc⟩
      · rcases hright with ⟨c, rfl, hc⟩ | ⟨rfl, rfl⟩
        · exact .inr ⟨c, after, rfl, hc⟩
        · exact .inl rfl
    · rintro ⟨before, here, after, rfl, hhere, hbefore, hafter⟩
      -- the character on either side, if there is one, goes over to what is matched
      obtain ⟨front, left, rfl, hleft⟩ : ∃ front left, before = front ++ left ∧
          (left = [] ∧ front = [] ∨
            ∃ c, left = String.utf8EncodeChar c ∧ isWordCharacter c = false) := by
        rcases hbefore with rfl | ⟨front, c, rfl, hc⟩
        · exact ⟨[], [], rfl, .inl ⟨rfl, rfl⟩⟩
        · exact ⟨front, _, rfl, .inr ⟨c, rfl, hc⟩⟩
      obtain ⟨right, rest, rfl, hright⟩ : ∃ right rest, after = right ++ rest ∧
          ((∃ c, right = String.utf8EncodeChar c ∧ isWordCharacter c = false) ∨
            right = [] ∧ rest = []) := by
        rcases hafter with rfl | ⟨c, rest, rfl, hc⟩
        · exact ⟨[], [], rfl, .inr ⟨rfl, rfl⟩⟩
        · exact ⟨_, rest, rfl, .inl ⟨c, rfl, hc⟩⟩
      exact ⟨front, left ++ (here ++ right), rest, by simp, left, here ++ right, rfl, hleft, here,
        right, rfl, hhere, hright⟩

/-! ## Which lines match -/

/-- Only a line feed folds to a line feed: every other character folds to itself or above it. -/
theorem eq_newline_of_foldCase {c : Char} (h : foldCase c = '\n') : c = '\n' := by
  have htargets : ∀ r ∈ foldRuns, 10 < r.target := by decide +kernel
  unfold foldCase at h
  split at h
  next n hn =>
    obtain ⟨r, hr, himage⟩ := List.exists_of_findSome?_eq_some hn
    have htarget := htargets r hr
    have hlt : 10 < n := by
      unfold FoldRun.image? at himage
      split at himage
      · have hsum := Option.some.inj himage
        omega
      · cases himage
    -- a number that is no character's gives the character of number zero
    by_cases hvalid : n.isValidChar
    · have hval := congrArg (·.val.toNat) h
      rw [Char.ofNat, dif_pos hvalid] at hval
      have hten : n = 10 := hval
      omega
    · rw [Char.ofNat, dif_neg hvalid] at h
      exact absurd h (by decide)
  next => exact h

/-- A text that is the same as one with a line feed has a line feed. -/
theorem SameText.newline_mem {ignoreCase : Bool} {s t : Text} (h : SameText ignoreCase s t)
    (hs : '\n' ∈ s) : '\n' ∈ t := by
  cases ignoreCase with
  | false =>
    have heq : s = t := h
    rwa [← heq]
  | true =>
    have hfold : s.map foldCase = t.map foldCase := h
    have hmem : foldCase '\n' ∈ t.map foldCase := by
      rw [← hfold]
      exact List.mem_map_of_mem hs
    obtain ⟨c, hc, heq⟩ := List.mem_map.1 hmem
    have hnewline : foldCase '\n' = '\n' := by decide +kernel
    rwa [← eq_newline_of_foldCase (heq.trans hnewline)]

/-- An occurrence of a pattern with a line feed has a line feed. -/
theorem IsOccurrence.lineFeed_mem {ignoreCase : Bool} {pattern : Text} {here : Bytes}
    (h : IsOccurrence ignoreCase pattern here) (hpattern : '\n' ∈ pattern) : lineFeed ∈ here := by
  obtain ⟨t, ht, rfl⟩ := h
  exact List.mem_flatMap.2 ⟨'\n', ht.newline_mem hpattern, by decide⟩

/-- **The pattern is literal text.** Whatever characters it has and whatever bytes a line has, the line
matches exactly if somewhere in it stands an occurrence of the pattern: its encoding or, without regard
to case, the encoding of a text of which each character has the same simple folding. For whole words,
the line has to begin before it or have the encoding of a character there that is no word character,
and likewise after it; any occurrence will do. Just these are the lines in which an expression is
found that takes the pattern literally, and that for whole words also takes in a character that is no
word character, or an end of the line, on either side. A pattern with a line feed matches no line of
any input. -/
theorem matchesLine_literal (m : MatchMode) (pattern : Text) :
    (∀ line, matchesLine m pattern line = true ↔ ∃ before here after,
      line = before ++ here ++ after ∧ IsOccurrence m.ignoreCase pattern here ∧
        (m.wholeWords = true → StandsAlone before after)) ∧
    (∀ line, matchesLine m pattern line = true ↔
      (expressionFor m pattern).FoundIn m.ignoreCase line) ∧
    ('\n' ∈ pattern → ∀ data, ∀ line ∈ Bytes.lines data, matchesLine m pattern line = false) := by
  refine ⟨fun line => matchesLine_iff, fun line => ?_, fun hpattern data line hline => ?_⟩
  · rw [matchesLine_iff, foundIn_expressionFor_iff]
  · refine Bool.eq_false_iff.2 fun hmatch => ?_
    obtain ⟨before, here, after, rfl, hhere, -⟩ := matchesLine_iff.1 hmatch
    have hfeed : lineFeed ∈ before ++ here ++ after :=
      List.mem_append_left after (List.mem_append_right before (hhere.lineFeed_mem hpattern))
    exact Bytes.lineFeed_not_mem_of_mem_lines hline hfeed

/-- The first occurrence does not stand alone, and the one that does begins inside it; the point would
mean something else in an expression, and the Kelvin sign is a `k` without regard to case. -/
theorem matchesLine_literal_of_overlap :
    let words : MatchMode := { ignoreCase := true, wholeWords := true }
    let pattern := "k.k".toList
    let line := Text.utf8 "жk.K.\u212a".toList
    matchesLine words pattern (Text.utf8 "жk.K".toList) = false ∧
      matchesLine words pattern line = true ∧
      (expressionFor words pattern).FoundIn true line ∧
      ¬ (expressionFor words pattern).FoundIn true (Text.utf8 "жk.K".toList) ∧
      matchesLine words "k\n".toList (Text.utf8 "k".toList) = false := by
  intro words pattern line
  obtain ⟨hoccurs, hfound, -⟩ := matchesLine_literal words pattern
  have hhere : IsOccurrence true pattern (Text.utf8 "K.\u212a".toList) := by
    refine ⟨"K.\u212a".toList, ?_, rfl⟩
    show List.map foldCase pattern = List.map foldCase "K.\u212a".toList
    decide +kernel
  have halone : StandsAlone (Text.utf8 "жk.".toList) [] :=
    ⟨.inr ⟨Text.utf8 "жk".toList, '.', by decide +kernel, by decide +kernel⟩, .inl rfl⟩
  have hline : line = Text.utf8 "жk.".toList ++ Text.utf8 "K.\u212a".toList ++ [] := by decide +kernel
  have hmatch : matchesLine words pattern line = true :=
    (hoccurs line).2 ⟨_, _, _, hline, hhere, fun _ => halone⟩
  have hfirst : matchesLine words pattern (Text.utf8 "жk.K".toList) = false := by decide +kernel
  refine ⟨hfirst, hmatch, (hfound line).1 hmatch, fun h => ?_, ?_⟩
  · rw [(hfound _).2 h] at hfirst
    cases hfirst
  · exact (matchesLine_literal words "k\n".toList).2.2 (by decide +kernel) (Text.utf8 "k".toList) _
      (by decide +kernel)

end PipeShell
