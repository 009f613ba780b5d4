import PipeShell.Token.Lexer

/-! # Segmentations of a line

A line is *well quoted* when it can be cut into segments: plain characters and quoted spans. What it
then consists of can be said without reading it from left to right: the segments are cut at the pipe
operators and at white space, and what stands between the cuts is a word.

* **`Segment`**, **`spelled`** — the pieces of a line and the text that they spell.
* **`Segmentation line`** — a way to cut a line into segments; there is at most one.
* **`exists_segments`** — a line that cannot be cut breaks off inside a quoted span.
* **`Word.ofSegments`** — the word that a stretch of segments spells.
* **`lexemesOf`**, **`tokensOf`** — what the segments of a line stand for. -/

namespace PipeShell

/-! ## Segments -/

/-- A piece of a line. -/
inductive Segment where
  /-- A character outside quotes. -/
  | plain (c : Char)
  /-- The characters between two quotation marks of a kind. -/
  | span (q : Quote) (text : Text)
  deriving DecidableEq, Repr

/-- The characters of a segment, the quotation marks included. -/
def Segment.text : Segment → Text
  | .plain c => [c]
  | .span q t => q.mark :: (t ++ [q.mark])

/-- Can the segment stand in a line? No quotation mark is plain, and a span ends at the first mark of
its kind. -/
def Segment.WellFormed : Segment → Prop
  | .plain c => ∀ q : Quote, c ≠ q.mark
  | .span q t => q.mark ∉ t

/-- Does the segment end a word? -/
def Segment.isBlank : Segment → Bool
  | .plain c => isWhiteSpace c
  | .span _ _ => false

/-- Does the segment end a stage? -/
def Segment.isPipe : Segment → Bool
  | .plain c => c == '|'
  | .span _ _ => false

/-- **The text that segments spell.** -/
def spelled (ss : List Segment) : Text := ss.flatMap Segment.text

@[simp] theorem spelled_nil : spelled [] = [] := rfl

@[simp] theorem spelled_cons (s : Segment) (ss : List Segment) :
    spelled (s :: ss) = s.text ++ spelled ss := rfl

/-- Plain characters spell themselves. -/
theorem spelled_map_plain (t : Text) : spelled (t.map .plain) = t := by
  induction t with
  | nil => rfl
  | cons c t ih => exact congrArg (c :: ·) ih

/-- Different kinds of spans have different marks. -/
theorem Quote.mark_injective {q r : Quote} (h : q.mark = r.mark) : q = r := by
  revert h
  cases q <;> cases r <;> decide

/-- No segment is empty. -/
theorem Segment.text_ne_nil (s : Segment) : s.text ≠ [] := by
  cases s <;> simp [text]

/-- **A line begins with one segment at most**, and what follows it is known too. -/
theorem Segment.eq_of_text_append_eq {s t : Segment} (hs : s.WellFormed) (ht : t.WellFormed)
    {xs ys : Text} (h : s.text ++ xs = t.text ++ ys) : s = t ∧ xs = ys := by
  cases s with
  | plain c =>
    cases t with
    | plain d =>
      obtain ⟨rfl, hrest⟩ := List.cons.inj h
      exact ⟨rfl, hrest⟩
    | span r u => exact absurd (List.cons.inj h).1 (hs r)
  | span q v =>
    cases t with
    | plain d => exact absurd (List.cons.inj h).1.symm (ht q)
    | span r u =>
      simp only [text, List.cons_append, List.append_assoc, List.nil_append] at h
      obtain ⟨hmark, hrest⟩ := List.cons.inj h
      obtain rfl := Quote.mark_injective hmark
      have hv : q.mark ∉ v := hs
      have hu : q.mark ∉ u := ht
      -- both spans end at the first mark after the opening one
      have hcut := congrArg (List.splitOn q.mark) hrest
      rw [List.splitOn_append_cons_self_of_not_mem hv,
        List.splitOn_append_cons_self_of_not_mem hu] at hcut
      obtain ⟨rfl, -⟩ := List.cons.inj hcut
      exact ⟨rfl, (List.cons.inj (List.append_cancel_left hrest)).2⟩

/-- **A line is cut in one way only**: well-formed segments with the same spelling are the same. -/
theorem eq_of_spelled_eq {ss ts : List Segment} (hs : ∀ s ∈ ss, s.WellFormed)
    (ht : ∀ t ∈ ts, t.WellFormed) (h : spelled ss = spelled ts) : ss = ts := by
  induction ss generalizing ts with
  | nil =>
    cases ts with
    | nil => rfl
    | cons t ts =>
      have hnil : t.text ++ spelled ts = [] := h.symm
      exact absurd (List.append_eq_nil_iff.1 hnil).1 t.text_ne_nil
  | cons s ss ih =>
    cases ts with
    | nil => exact absurd (List.append_eq_nil_iff.1 h).1 s.text_ne_nil
    | cons t ts =>
      obtain ⟨hs₀, hss⟩ := List.forall_mem_cons.1 hs
      obtain ⟨ht₀, hts⟩ := List.forall_mem_cons.1 ht
      obtain ⟨rfl, hrest⟩ := Segment.eq_of_text_append_eq hs₀ ht₀ h
      rw [ih hss hts hrest]

/-- **A way to cut a line into segments.** -/
structure Segmentation (line : Text) where
  /-- The segments, in order. -/
  segments : List Segment
  wellFormed : ∀ s ∈ segments, s.WellFormed
  spelling : spelled segments = line

/-- There is at most one way to cut a line. -/
instance (line : Text) : Subsingleton (Segmentation line) := by
  constructor
  rintro ⟨ss, hs, hss⟩ ⟨ts, ht, hts⟩
  obtain rfl : ss = ts := eq_of_spelled_eq hs ht (hss.trans hts.symm)
  rfl

/-- **A line is cut into segments up to its end or up to a span that is not closed.** -/
theorem exists_segments (line : Text) :
    ∃ ss : List Segment, (∀ s ∈ ss, s.WellFormed) ∧
      (spelled ss = line ∨ ∃ (q : Quote) (t : Text), q.mark ∉ t ∧ spelled ss ++ q.mark :: t = line) := by
  induction hn : line.length using Nat.strongRecOn generalizing line with
  | _ n ih =>
    cases line with
    | nil => exact ⟨[], by simp, .inl rfl⟩
    | cons c cs =>
      by_cases hc : ∃ q : Quote, c = q.mark
      · obtain ⟨q, rfl⟩ := hc
        by_cases hq : q.mark ∈ cs
        · -- the span is closed by the first mark, and what follows it is shorter
          obtain ⟨t, rest, rfl, ht⟩ := List.eq_append_cons_of_mem hq
          obtain ⟨ss, hss, hrest⟩ := ih rest.length (by simp at hn; omega) rest rfl
          refine ⟨.span q t :: ss, List.forall_mem_cons.2 ⟨ht, hss⟩, ?_⟩
          rcases hrest with rfl | ⟨r, u, hu, rfl⟩
          · exact .inl (by simp [Segment.text])
          · exact .inr ⟨r, u, hu, by simp [Segment.text]⟩
        · exact ⟨[], by simp, .inr ⟨q, cs, hq, rfl⟩⟩
      · obtain ⟨ss, hss, hrest⟩ := ih cs.length (by simp at hn; omega) cs rfl
        refine ⟨.plain c :: ss, List.forall_mem_cons.2 ⟨fun q hq => hc ⟨q, hq⟩, hss⟩, ?_⟩
        rcases hrest with rfl | ⟨r, u, hu, rfl⟩
        · exact .inl rfl
        · exact .inr ⟨r, u, hu, rfl⟩

/-! ## The word of a stretch of segments -/

/-- **The word that segments spell**: a part for each longest run of plain characters and a part for
each quoted span. -/
def Word.ofSegments : List Segment → Word
  | [] => []
  | .span q t :: ss => .quoted q t :: ofSegments ss
  | .plain c :: ss =>
    match ofSegments ss with
    -- the character belongs to the run that begins right after it
    | .bare t :: w => .bare (c :: t) :: w
    | w => .bare [c] :: w

@[simp] theorem Word.ofSegments_nil : Word.ofSegments [] = [] := rfl

@[simp] theorem Word.ofSegments_span (q : Quote) (t : Text) (ss : List Segment) :
    Word.ofSegments (.span q t :: ss) = .quoted q t :: Word.ofSegments ss := rfl

/-- Only no segments spell the empty word. -/
@[simp] theorem Word.ofSegments_eq_nil_iff {ss : List Segment} :
    Word.ofSegments ss = [] ↔ ss = [] := by
  cases ss with
  | nil => simp
  | cons s ss =>
    cases s with
    | span q t => simp
    | plain c => rw [ofSegments]; split <;> simp

/-- A run of plain characters that cannot be continued is one part. -/
theorem Word.ofSegments_plain_append (t : Text) (ss : List Segment)
    (h : ∀ u w, Word.ofSegments ss ≠ .bare u :: w) :
    Word.ofSegments (t.map .plain ++ ss) = Word.ofRun t ++ Word.ofSegments ss := by
  induction t with
  | nil => rfl
  | cons c t ih =>
    rw [List.map_cons, List.cons_append, ofSegments, ih]
    cases t with
    | nil =>
      rw [ofRun_nil, List.nil_append]
      split
      next u w hw => exact absurd hw (h u w)
      next => rfl
    | cons d t => rfl

/-! ## The tokens of a segmentation -/

/-- The words of a stage: what stands between the blanks. -/
def wordsOf (ss : List Segment) : List Word :=
  ((ss.splitOnP Segment.isBlank).filter (!·.isEmpty)).map Word.ofSegments

/-- **The lexemes of segments**: the words of each stage, with a pipe operator between the stages. -/
def lexemesOf (ss : List Segment) : List Lexeme :=
  [Lexeme.pipe].intercalate ((ss.splitOnP Segment.isPipe).map fun g => (wordsOf g).map .word)

/-- A word as an item: as an assignment if it reads as one. -/
def Item.ofWord (w : Word) : Item :=
  match w.assignment? with
  | some (name, value) => .assign name value
  | none => .word w

/-- **The items of a stage**: the words before the first one that is no assignment are assignments,
all others are words of the command. -/
def itemsOf (ws : List Word) : List Item :=
  (ws.takeWhile (·.assignment?.isSome)).map Item.ofWord
    ++ (ws.dropWhile (·.assignment?.isSome)).map .word

/-- **The tokens of segments**: the items of each stage, with a pipe operator between the stages. -/
def tokensOf (ss : List Segment) : List Token :=
  [Token.pipe].intercalate
    ((ss.splitOnP Segment.isPipe).map fun g => (itemsOf (wordsOf g)).map .item)

end PipeShell
