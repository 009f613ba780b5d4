/-! # Text, bytes and their encoding

A command line is a list of characters; what flows between commands is a list of bytes.

* **`Text`**, **`Bytes`** — the two kinds of sequence.
* **`Text.utf8`** — the UTF-8 encoding of a text.
* **`Bytes.pieces`** — the reading of arbitrary bytes: validly encoded characters, and between them
  the *stray* runs that no encoding accounts for.
* **`Bytes.lossyText`**, **`Bytes.text?`** — the two ways to get a text out of bytes: with each stray
  run replaced by U+FFFD, or only when there is none. -/

namespace PipeShell

/-- A sequence of characters. -/
abbrev Text := List Char

/-- A sequence of bytes. -/
abbrev Bytes := List UInt8

/-! ## Encoding -/

/-- **The UTF-8 encoding of a text**, character by character. -/
def Text.utf8 (t : Text) : Bytes := t.flatMap String.utf8EncodeChar

@[simp] theorem Text.utf8_nil : Text.utf8 [] = [] := rfl

@[simp] theorem Text.utf8_cons (c : Char) (t : Text) :
    Text.utf8 (c :: t) = String.utf8EncodeChar c ++ Text.utf8 t := rfl

/-- Encoding distributes over concatenation. -/
@[simp] theorem Text.utf8_append (s t : Text) :
    Text.utf8 (s ++ t) = Text.utf8 s ++ Text.utf8 t := by
  simp [Text.utf8]

/-! ## The shape of an encoded character

The first byte says how many bytes there are; the second is the only other one whose range depends
on the first, which rules out overlong forms, surrogates and values past U+10FFFF. -/

/-- A byte that only continues a character. -/
def isContinuation (b : UInt8) : Bool := 0x80 ≤ b && b ≤ 0xBF

/-- How many bytes a character has that starts with `b`; zero when no character does. -/
def encodedLength (b : UInt8) : Nat :=
  if b < 0x80 then 1
  else if 0xC2 ≤ b && b ≤ 0xDF then 2
  else if 0xE0 ≤ b && b ≤ 0xEF then 3
  else if 0xF0 ≤ b && b ≤ 0xF4 then 4
  else 0

/-- May `b` be the second byte of a character that starts with `lead`? -/
def continuesLead (lead b : UInt8) : Bool :=
  if lead = 0xE0 then 0xA0 ≤ b && b ≤ 0xBF
  else if lead = 0xED then 0x80 ≤ b && b ≤ 0x9F
  else if lead = 0xF0 then 0x90 ≤ b && b ≤ 0xBF
  else if lead = 0xF4 then 0x80 ≤ b && b ≤ 0x8F
  else isContinuation b

/-- The character whose encoding has the given payload in its first byte and six bits in each of
the following ones. -/
def ofPayload (lead : Nat) (rest : Bytes) : Char :=
  Char.ofNat (rest.foldl (fun n b => n * 64 + (b.toNat - 0x80)) lead)

/-! ## Reading bytes -/

/-- A part of a byte string: an encoded character, or bytes that encode none. -/
inductive Piece where
  /-- A validly encoded character. -/
  | char (c : Char)
  /-- A longest run of bytes that begins a character without completing it, or a single byte that
  begins none. -/
  | stray (bytes : Bytes)
  deriving DecidableEq, Repr

/-- **The pieces of a byte string**, left to right. A character that breaks off yields one stray
piece, and reading goes on with the byte that broke it off. -/
def Bytes.pieces : Bytes → List Piece
  | [] => []
  | a :: rest =>
    if encodedLength a = 1 then .char (ofPayload a.toNat []) :: pieces rest
    else if encodedLength a = 0 then .stray [a] :: pieces rest
    else match rest with
      | [] => [.stray [a]]
      | b :: rest =>
        -- a byte that breaks a character off is read again as a first byte
        if continuesLead a b = false then .stray [a] :: pieces (b :: rest)
        else if encodedLength a = 2 then .char (ofPayload (a.toNat - 0xC0) [b]) :: pieces rest
        else match rest with
          | [] => [.stray [a, b]]
          | c :: rest =>
            if isContinuation c = false then .stray [a, b] :: pieces (c :: rest)
            else if encodedLength a = 3 then
              .char (ofPayload (a.toNat - 0xE0) [b, c]) :: pieces rest
            else match rest with
              | [] => [.stray [a, b, c]]
              | d :: rest =>
                if isContinuation d = false then .stray [a, b, c] :: pieces (d :: rest)
                else .char (ofPayload (a.toNat - 0xF0) [b, c, d]) :: pieces rest

@[simp] theorem Bytes.pieces_nil : Bytes.pieces [] = [] := rfl

/-- The character that stands for a piece in a text: itself, or U+FFFD for a stray run. -/
def Piece.replaced : Piece → Char
  | .char c => c
  | .stray _ => Char.ofNat 0xFFFD

/-- The character of a piece that is one. -/
def Piece.char? : Piece → Option Char
  | .char c => some c
  | .stray _ => none

/-- **The text of a byte string**, each stray run replaced by U+FFFD. -/
def Bytes.lossyText (bs : Bytes) : Text := (pieces bs).map Piece.replaced

/-- **The text that a byte string encodes**, if it encodes one. -/
def Bytes.text? (bs : Bytes) : Option Text := (pieces bs).mapM Piece.char?

@[simp] theorem Bytes.lossyText_nil : Bytes.lossyText [] = [] := rfl

@[simp] theorem Bytes.text?_nil : Bytes.text? [] = some [] := rfl

/-! ## Readings at the boundaries -/

example : Bytes.pieces (Text.utf8 "aж€😀".toList) = "aж€😀".toList.map .char := by
  decide +kernel

example : Bytes.pieces [0xE2, 0x82, 0x41, 0xFF] = [.stray [0xE2, 0x82], .char 'A', .stray [0xFF]] := by
  decide

example : Bytes.pieces [0xED, 0xA0, 0x80] = [.stray [0xED], .stray [0xA0], .stray [0x80]] := by
  decide

end PipeShell
