import PipeShell.Text

/-! # Reading what has been encoded

The pieces of a byte string are cut by looking at the first byte of each character and at the range of
the second. Here they are compared with the encoding of characters, which computes the bytes from the
number of the character.

* **`Encoded c bs`** — what the reading accepts as one character.
* **`encoded_utf8EncodeChar`**, **`Encoded.utf8EncodeChar_eq`** — that is the encoding of the character.
* **`Bytes.flatMap_bytes_pieces`** — the pieces of a byte string spell it.
* **`Bytes.text?_eq_some_iff`** — a byte string has a text exactly if it is the encoding of that text.
* **`IsUtf8`** — being the encoding of some text, and how that follows from the parts of a string. -/

namespace PipeShell

/-! ## The ranges of bytes -/

/-- **The first bytes**, by the length of the character that they begin. -/
theorem encodedLength_cases (b : UInt8) :
    encodedLength b = 0 ∧ (0x80 ≤ b.toNat ∧ b.toNat < 0xC2 ∨ 0xF4 < b.toNat) ∨
      encodedLength b = 1 ∧ b.toNat < 0x80 ∨
      encodedLength b = 2 ∧ 0xC2 ≤ b.toNat ∧ b.toNat ≤ 0xDF ∨
      encodedLength b = 3 ∧ 0xE0 ≤ b.toNat ∧ b.toNat ≤ 0xEF ∨
      encodedLength b = 4 ∧ 0xF0 ≤ b.toNat ∧ b.toNat ≤ 0xF4 := by
  simp only [encodedLength, UInt8.lt_iff_toNat_lt, UInt8.le_iff_toNat_le, Bool.and_eq_true,
    decide_eq_true_eq, UInt8.toNat_ofNat, Nat.reducePow, Nat.reduceMod]
  repeat' split
  all_goals omega

/-- The bytes after the first, in numbers. -/
theorem isContinuation_iff {b : UInt8} :
    isContinuation b = true ↔ 0x80 ≤ b.toNat ∧ b.toNat ≤ 0xBF := by
  simp [isContinuation, UInt8.le_iff_toNat_le]

/-- The range of the second byte, in numbers: four first bytes narrow it. -/
theorem continuesLead_iff {lead b : UInt8} :
    continuesLead lead b = true ↔ (0x80 ≤ b.toNat ∧ b.toNat ≤ 0xBF) ∧
      (lead.toNat = 0xE0 → 0xA0 ≤ b.toNat) ∧ (lead.toNat = 0xED → b.toNat ≤ 0x9F) ∧
      (lead.toNat = 0xF0 → 0x90 ≤ b.toNat) ∧ (lead.toNat = 0xF4 → b.toNat ≤ 0x8F) := by
  unfold continuesLead
  simp only [← UInt8.toNat_inj, UInt8.toNat_ofNat, Nat.reducePow, Nat.reduceMod]
  repeat' split
  all_goals simp only [isContinuation_iff, Bool.and_eq_true, decide_eq_true_eq,
    UInt8.le_iff_toNat_le, UInt8.toNat_ofNat, Nat.reducePow, Nat.reduceMod]
  all_goals omega

/-! ## One character -/

/-- **The bytes that are read as a character.** -/
inductive Encoded : Char → Bytes → Prop where
  | one {a : UInt8} : encodedLength a = 1 → Encoded (ofPayload a.toNat []) [a]
  | two {a b : UInt8} : encodedLength a = 2 → continuesLead a b = true →
      Encoded (ofPayload (a.toNat - 0xC0) [b]) [a, b]
  | three {a b c : UInt8} : encodedLength a = 3 → continuesLead a b = true →
      isContinuation c = true → Encoded (ofPayload (a.toNat - 0xE0) [b, c]) [a, b, c]
  | four {a b c d : UInt8} : encodedLength a = 4 → continuesLead a b = true →
      isContinuation c = true → isContinuation d = true →
      Encoded (ofPayload (a.toNat - 0xF0) [b, c, d]) [a, b, c, d]

/-- The bytes that are read as a character are read in front of any others. -/
theorem Encoded.pieces_append {x : Char} {bs : Bytes} (h : Encoded x bs) (rest : Bytes) :
    Bytes.pieces (bs ++ rest) = .char x :: Bytes.pieces rest := by
  cases h with
  | one ha =>
    rw [List.cons_append, Bytes.pieces.eq_def]
    simp [ha]
  | two ha hb =>
    rw [List.cons_append, Bytes.pieces.eq_def]
    simp [ha, hb]
  | three ha hb hc =>
    rw [List.cons_append, Bytes.pieces.eq_def]
    simp [ha, hb, hc]
  | four ha hb hc hd =>
    rw [List.cons_append, Bytes.pieces.eq_def]
    simp [ha, hb, hc, hd]

/-- The encoding of the character with a given number. -/
theorem utf8EncodeChar_ofNat {n : Nat} (h : n.isValidChar) :
    String.utf8EncodeChar (Char.ofNat n)
      = if n ≤ 0x7F then [UInt8.ofNat n]
        else if n ≤ 0x7FF then [UInt8.ofNat (n / 64 % 32 + 0xC0), UInt8.ofNat (n % 64 + 0x80)]
        else if n ≤ 0xFFFF then [UInt8.ofNat (n / 4096 % 16 + 0xE0),
          UInt8.ofNat (n / 64 % 64 + 0x80), UInt8.ofNat (n % 64 + 0x80)]
        else [UInt8.ofNat (n / 262144 % 8 + 0xF0), UInt8.ofNat (n / 4096 % 64 + 0x80),
          UInt8.ofNat (n / 64 % 64 + 0x80), UInt8.ofNat (n % 64 + 0x80)] := by
  have hval : (Char.ofNat n).val.toNat = n := by
    rw [Char.ofNat, dif_pos h]
    rfl
  rw [String.utf8EncodeChar, hval]

/-- **The bytes that are read as a character are its encoding.** -/
theorem Encoded.utf8EncodeChar_eq {x : Char} {bs : Bytes} (h : Encoded x bs) :
    String.utf8EncodeChar x = bs := by
  -- the number of the character decides in how many bytes it is encoded, and its digits to the base
  -- 64 are the payloads
  cases h with
  | @one a ha =>
    have hlead : a.toNat < 0x80 := by
      have hcases := encodedLength_cases a
      omega
    have hvalid : a.toNat.isValidChar := .inl (by omega)
    rw [ofPayload, List.foldl_nil, utf8EncodeChar_ofNat hvalid, if_pos (by omega), UInt8.ofNat_toNat]
  | @two a b ha hb =>
    have hlead : 0xC2 ≤ a.toNat ∧ a.toNat ≤ 0xDF := by
      have hcases := encodedLength_cases a
      omega
    rw [continuesLead_iff] at hb
    simp only [ofPayload, List.foldl_cons, List.foldl_nil]
    generalize hn : (a.toNat - 0xC0) * 64 + (b.toNat - 0x80) = n
    have hvalid : n.isValidChar := .inl (by omega)
    have h1 : n / 64 % 32 + 0xC0 = a.toNat := by omega
    have h2 : n % 64 + 0x80 = b.toNat := by omega
    rw [utf8EncodeChar_ofNat hvalid, if_neg (by omega), if_pos (by omega), h1, h2,
      UInt8.ofNat_toNat, UInt8.ofNat_toNat]
  | @three a b c ha hb hc =>
    have hlead : 0xE0 ≤ a.toNat ∧ a.toNat ≤ 0xEF := by
      have hcases := encodedLength_cases a
      omega
    rw [continuesLead_iff] at hb
    rw [isContinuation_iff] at hc
    simp only [ofPayload, List.foldl_cons, List.foldl_nil]
    generalize hn : ((a.toNat - 0xE0) * 64 + (b.toNat - 0x80)) * 64 + (c.toNat - 0x80) = n
    have hvalid : n < 0xD800 ∨ 0xDFFF < n ∧ n < 0x110000 := by omega
    have h1 : n / 4096 % 16 + 0xE0 = a.toNat := by omega
    have h2 : n / 64 % 64 + 0x80 = b.toNat := by omega
    have h3 : n % 64 + 0x80 = c.toNat := by omega
    rw [utf8EncodeChar_ofNat hvalid, if_neg (by omega), if_neg (by omega), if_pos (by omega),
      h1, h2, h3, UInt8.ofNat_toNat, UInt8.ofNat_toNat, UInt8.ofNat_toNat]
  | @four a b c d ha hb hc hd =>
    have hlead : 0xF0 ≤ a.toNat ∧ a.toNat ≤ 0xF4 := by
      have hcases := encodedLength_cases a
      omega
    rw [continuesLead_iff] at hb
    rw [isContinuation_iff] at hc hd
    simp only [ofPayload, List.foldl_cons, List.foldl_nil]
    generalize hn : (((a.toNat - 0xF0) * 64 + (b.toNat - 0x80)) * 64 + (c.toNat - 0x80)) * 64
      + (d.toNat - 0x80) = n
    have hvalid : n < 0xD800 ∨ 0xDFFF < n ∧ n < 0x110000 := by omega
    have h1 : n / 262144 % 8 + 0xF0 = a.toNat := by omega
    have h2 : n / 4096 % 64 + 0x80 = b.toNat := by omega
    have h3 : n / 64 % 64 + 0x80 = c.toNat := by omega
    have h4 : n % 64 + 0x80 = d.toNat := by omega
    rw [utf8EncodeChar_ofNat hvalid, if_neg (by omega), if_neg (by omega), if_neg (by omega),
      h1, h2, h3, h4, UInt8.ofNat_toNat, UInt8.ofNat_toNat, UInt8.ofNat_toNat, UInt8.ofNat_toNat]

/-- A number up to 0x7F is read from one byte. -/
theorem encoded_one {n : Nat} (h : n ≤ 0x7F) : Encoded (Char.ofNat n) [UInt8.ofNat n] := by
  have h1 := UInt8.toNat_ofNat_of_lt' (by omega : n < 256)
  generalize UInt8.ofNat n = a at h1 ⊢
  have hlead : encodedLength a = 1 := by
    have hcases := encodedLength_cases a
    omega
  have hread := Encoded.one hlead
  rwa [ofPayload, List.foldl_nil, h1] at hread

/-- A number up to 0x7FF is read from two bytes. -/
theorem encoded_two {n : Nat} (h : 0x7F < n) (h' : n ≤ 0x7FF) :
    Encoded (Char.ofNat n) [UInt8.ofNat (n / 64 % 32 + 0xC0), UInt8.ofNat (n % 64 + 0x80)] := by
  have h1 := UInt8.toNat_ofNat_of_lt' (by omega : n / 64 % 32 + 0xC0 < 256)
  have h2 := UInt8.toNat_ofNat_of_lt' (by omega : n % 64 + 0x80 < 256)
  generalize UInt8.ofNat (n / 64 % 32 + 0xC0) = a at h1 ⊢
  generalize UInt8.ofNat (n % 64 + 0x80) = b at h2 ⊢
  have hlead : encodedLength a = 2 := by
    have hcases := encodedLength_cases a
    omega
  have hread := Encoded.two hlead (continuesLead_iff.2 (by omega) : continuesLead a b = true)
  have hn : (a.toNat - 0xC0) * 64 + (b.toNat - 0x80) = n := by omega
  rwa [ofPayload, List.foldl_cons, List.foldl_nil, hn] at hread

/-- A number up to 0xFFFF is read from three bytes, unless it is that of a surrogate. -/
theorem encoded_three {n : Nat} (h : 0x7FF < n) (h' : n ≤ 0xFFFF) (hn : n < 0xD800 ∨ 0xDFFF < n) :
    Encoded (Char.ofNat n) [UInt8.ofNat (n / 4096 % 16 + 0xE0), UInt8.ofNat (n / 64 % 64 + 0x80),
      UInt8.ofNat (n % 64 + 0x80)] := by
  have h1 := UInt8.toNat_ofNat_of_lt' (by omega : n / 4096 % 16 + 0xE0 < 256)
  have h2 := UInt8.toNat_ofNat_of_lt' (by omega : n / 64 % 64 + 0x80 < 256)
  have h3 := UInt8.toNat_ofNat_of_lt' (by omega : n % 64 + 0x80 < 256)
  generalize UInt8.ofNat (n / 4096 % 16 + 0xE0) = a at h1 ⊢
  generalize UInt8.ofNat (n / 64 % 64 + 0x80) = b at h2 ⊢
  generalize UInt8.ofNat (n % 64 + 0x80) = c at h3 ⊢
  have hlead : encodedLength a = 3 := by
    have hcases := encodedLength_cases a
    omega
  have hread := Encoded.three hlead
    (continuesLead_iff.2 (by omega) : continuesLead a b = true)
    (isContinuation_iff.2 (by omega) : isContinuation c = true)
  have hn : ((a.toNat - 0xE0) * 64 + (b.toNat - 0x80)) * 64 + (c.toNat - 0x80) = n := by omega
  rwa [ofPayload, List.foldl_cons, List.foldl_cons, List.foldl_nil, hn] at hread

/-- A number up to 0x10FFFF is read from four bytes. -/
theorem encoded_four {n : Nat} (h : 0xFFFF < n) (h' : n < 0x110000) :
    Encoded (Char.ofNat n) [UInt8.ofNat (n / 262144 % 8 + 0xF0),
      UInt8.ofNat (n / 4096 % 64 + 0x80), UInt8.ofNat (n / 64 % 64 + 0x80),
      UInt8.ofNat (n % 64 + 0x80)] := by
  have h1 := UInt8.toNat_ofNat_of_lt' (by omega : n / 262144 % 8 + 0xF0 < 256)
  have h2 := UInt8.toNat_ofNat_of_lt' (by omega : n / 4096 % 64 + 0x80 < 256)
  have h3 := UInt8.toNat_ofNat_of_lt' (by omega : n / 64 % 64 + 0x80 < 256)
  have h4 := UInt8.toNat_ofNat_of_lt' (by omega : n % 64 + 0x80 < 256)
  generalize UInt8.ofNat (n / 262144 % 8 + 0xF0) = a at h1 ⊢
  generalize UInt8.ofNat (n / 4096 % 64 + 0x80) = b at h2 ⊢
  generalize UInt8.ofNat (n / 64 % 64 + 0x80) = c at h3 ⊢
  generalize UInt8.ofNat (n % 64 + 0x80) = d at h4 ⊢
  have hlead : encodedLength a = 4 := by
    have hcases := encodedLength_cases a
    omega
  have hread := Encoded.four hlead
    (continuesLead_iff.2 (by omega) : continuesLead a b = true)
    (isContinuation_iff.2 (by omega) : isContinuation c = true)
    (isContinuation_iff.2 (by omega) : isContinuation d = true)
  have hn : (((a.toNat - 0xF0) * 64 + (b.toNat - 0x80)) * 64 + (c.toNat - 0x80)) * 64
      + (d.toNat - 0x80) = n := by omega
  rwa [ofPayload, List.foldl_cons, List.foldl_cons, List.foldl_cons, List.foldl_nil, hn] at hread

/-- **Every character is read from its encoding.** -/
theorem encoded_utf8EncodeChar (x : Char) : Encoded x (String.utf8EncodeChar x) := by
  have hx : x = Char.ofNat x.toNat := (Char.ofNat_toNat x).symm
  have hvalid : x.toNat < 0xD800 ∨ 0xDFFF < x.toNat ∧ x.toNat < 0x110000 := x.valid
  generalize x.toNat = n at hx hvalid
  rw [hx, utf8EncodeChar_ofNat hvalid]
  by_cases h1 : n ≤ 0x7F
  · rw [if_pos h1]
    exact encoded_one h1
  rw [if_neg h1]
  by_cases h2 : n ≤ 0x7FF
  · rw [if_pos h2]
    exact encoded_two (by omega) h2
  rw [if_neg h2]
  by_cases h3 : n ≤ 0xFFFF
  · rw [if_pos h3]
    exact encoded_three (by omega) h3 (by omega)
  · rw [if_neg h3]
    exact encoded_four (by omega) (by omega)

/-! ## Byte strings -/

/-- The bytes of a piece. -/
def Piece.bytes : Piece → Bytes
  | .char c => String.utf8EncodeChar c
  | .stray bs => bs

/-- **The pieces of a byte string spell it.** -/
theorem Bytes.flatMap_bytes_pieces (bs : Bytes) : (pieces bs).flatMap Piece.bytes = bs := by
  -- one case for each place where the reading can stop or go on; what is taken as a character is its
  -- encoding
  fun_induction pieces bs with
  | case1 => rfl
  | case2 a rest h1 ih =>
    rw [List.flatMap_cons, ih, Piece.bytes, (Encoded.one h1).utf8EncodeChar_eq]
    rfl
  | case3 a rest h1 h0 ih => rw [List.flatMap_cons, ih]; rfl
  | case4 a h1 h0 => rfl
  | case5 a h1 h0 b rest hb ih => rw [List.flatMap_cons, ih]; rfl
  | case6 a h1 h0 b rest hb h2 ih =>
    rw [List.flatMap_cons, ih, Piece.bytes, (Encoded.two h2 (by simpa using hb)).utf8EncodeChar_eq]
    rfl
  | case7 a h1 h0 b hb h2 => rfl
  | case8 a h1 h0 b hb h2 c rest hc ih => rw [List.flatMap_cons, ih]; rfl
  | case9 a h1 h0 b hb h2 c rest hc h3 ih =>
    rw [List.flatMap_cons, ih, Piece.bytes,
      (Encoded.three h3 (by simpa using hb) (by simpa using hc)).utf8EncodeChar_eq]
    rfl
  | case10 a h1 h0 b hb h2 c hc h3 => rfl
  | case11 a h1 h0 b hb h2 c hc h3 d rest hd ih => rw [List.flatMap_cons, ih]; rfl
  | case12 a h1 h0 b hb h2 c hc h3 d rest hd ih =>
    have h4 : encodedLength a = 4 := by
      have hlead := encodedLength_cases a
      omega
    rw [List.flatMap_cons, ih, Piece.bytes, (Encoded.four h4 (by simpa using hb) (by simpa using hc)
      (by simpa using hd)).utf8EncodeChar_eq]
    rfl

/-- The pieces of an encoded text are its characters. -/
theorem Bytes.pieces_utf8 (t : Text) : pieces t.utf8 = t.map .char := by
  induction t with
  | nil => rfl
  | cons c t ih =>
    rw [Text.utf8_cons, (encoded_utf8EncodeChar c).pieces_append, ih, List.map_cons]

/-- An encoded text is read back, also where strays would be replaced. -/
@[simp] theorem Bytes.lossyText_utf8 (t : Text) : lossyText t.utf8 = t := by
  rw [lossyText, pieces_utf8, List.map_map]
  exact List.map_id t

/-- Only characters make a text. -/
theorem mapM_char?_eq_some_iff {ps : List Piece} {t : Text} :
    ps.mapM Piece.char? = some t ↔ ps = t.map .char := by
  induction ps generalizing t with
  | nil => cases t <;> simp
  | cons p ps ih =>
    cases p with
    | stray bs => cases t <;> simp [List.mapM_cons, Piece.char?]
    | char c =>
      cases t with
      | nil => simp [List.mapM_cons, Piece.char?, Option.bind_eq_some_iff]
      | cons d t =>
        simpa [List.mapM_cons, Piece.char?, Option.bind_eq_some_iff, ih] using and_comm

/-- **A byte string has a text exactly if it is the encoding of that text.** -/
theorem Bytes.text?_eq_some_iff {bs : Bytes} {t : Text} : bs.text? = some t ↔ bs = t.utf8 := by
  rw [text?, mapM_char?_eq_some_iff]
  constructor
  · intro hpieces
    rw [← flatMap_bytes_pieces bs, hpieces, List.flatMap_map]
    rfl
  · rintro rfl
    exact pieces_utf8 t

/-! ## Encoded texts -/

/-- **Is a byte string valid UTF-8**, the encoding of some text? -/
def IsUtf8 (bs : Bytes) : Prop := ∃ t : Text, bs = t.utf8

/-- Valid UTF-8 is what has a text. -/
theorem isUtf8_iff_isSome {bs : Bytes} : IsUtf8 bs ↔ bs.text?.isSome = true := by
  simp only [IsUtf8, ← Bytes.text?_eq_some_iff, Option.isSome_iff_exists]

instance (bs : Bytes) : Decidable (IsUtf8 bs) := decidable_of_iff _ isUtf8_iff_isSome.symm

/-- Bytes that are no valid UTF-8 have no text. -/
theorem Bytes.text?_eq_none_iff {bs : Bytes} : bs.text? = none ↔ ¬ IsUtf8 bs := by
  rw [isUtf8_iff_isSome, Option.not_isSome_iff_eq_none]

theorem isUtf8_utf8 (t : Text) : IsUtf8 t.utf8 := ⟨t, rfl⟩

/-- A byte below 0x80 is in the encoding of no character but its own. -/
theorem utf8EncodeChar_eq_singleton {x : Char} {b : UInt8} (hb : b.toNat < 0x80)
    (h : b ∈ String.utf8EncodeChar x) : String.utf8EncodeChar x = [b] := by
  have hx := encoded_utf8EncodeChar x
  generalize String.utf8EncodeChar x = bs at hx h
  cases hx with
  | one ha => rw [List.mem_singleton.1 h]
  | @two a c ha hc =>
    have hlead := encodedLength_cases a
    rw [continuesLead_iff] at hc
    simp only [List.mem_cons, List.not_mem_nil, or_false] at h
    rcases h with rfl | rfl <;> omega
  | @three a c d ha hc hd =>
    have hlead := encodedLength_cases a
    rw [continuesLead_iff] at hc
    rw [isContinuation_iff] at hd
    simp only [List.mem_cons, List.not_mem_nil, or_false] at h
    rcases h with rfl | rfl | rfl <;> omega
  | @four a c d e ha hc hd he =>
    have hlead := encodedLength_cases a
    rw [continuesLead_iff] at hc
    rw [isContinuation_iff] at hd he
    simp only [List.mem_cons, List.not_mem_nil, or_false] at h
    rcases h with rfl | rfl | rfl | rfl <;> omega

/-- What stands before and after a byte below 0x80 is valid if the whole is. -/
theorem IsUtf8.of_append {as bs : Bytes} {b : UInt8} (hb : b.toNat < 0x80)
    (h : IsUtf8 (as ++ b :: bs)) : IsUtf8 as ∧ IsUtf8 bs := by
  obtain ⟨t, ht⟩ := h
  induction t generalizing as with
  | nil => simp at ht
  | cons x t ih =>
    -- the first character is the byte itself, or stands whole before it
    have hcut : as = [] ∧ bs = Text.utf8 t ∨
        ∃ cs, as = String.utf8EncodeChar x ++ cs ∧ cs ++ b :: bs = Text.utf8 t := by
      rw [Text.utf8_cons, List.append_eq_append_iff] at ht
      rcases ht with ⟨cs, hx, hrest⟩ | ⟨cs, has, hrest⟩
      · cases cs with
        | nil => exact .inr ⟨[], by simpa using hx.symm, by simpa using hrest⟩
        | cons c cs =>
          obtain ⟨rfl, rfl⟩ := List.cons.inj hrest
          have hmem : b ∈ String.utf8EncodeChar x := by
            rw [hx]
            exact List.mem_append_right as List.mem_cons_self
          have hsingle := utf8EncodeChar_eq_singleton hb hmem
          obtain ⟨rfl, rfl⟩ : as = [] ∧ cs = [] := by
            simpa [hx, List.append_eq_singleton_iff] using hsingle
          exact .inl ⟨rfl, rfl⟩
      · exact .inr ⟨cs, has, hrest.symm⟩
    rcases hcut with ⟨rfl, rfl⟩ | ⟨cs, rfl, hrest⟩
    · exact ⟨isUtf8_utf8 [], isUtf8_utf8 t⟩
    · obtain ⟨⟨s, rfl⟩, hbs⟩ := ih hrest
      exact ⟨isUtf8_utf8 (x :: s), hbs⟩

/-- Valid parts around a character are valid together. -/
theorem IsUtf8.append {as bs : Bytes} (ha : IsUtf8 as) (hb : IsUtf8 bs) : IsUtf8 (as ++ bs) := by
  obtain ⟨s, rfl⟩ := ha
  obtain ⟨t, rfl⟩ := hb
  exact ⟨s ++ t, (Text.utf8_append s t).symm⟩

end PipeShell
