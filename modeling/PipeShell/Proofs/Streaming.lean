import Mathlib.Data.Nat.Count
import PipeShell.Proofs.Counting

/-! # Counting as the bytes come in

The counts of some bytes are read off the fields that these are cut into. They can as well be kept up to
date byte by byte, if it is remembered whether the last byte belongs to a word: a word is counted where
it begins, and a byte and the one before it settle whether one does.

* **`Bytes.WordBeginsAt`** — the positions at which words begin.
* **`Bytes.words_counts_take`** — up to every position there are as many of them as words.
* **`RunningCounts`**, **`RunningCounts.read`** — counts that are kept up to date, and one byte for them.
* **`Bytes.read_running`**, **`Bytes.foldl_read_running`** — they are right after one more byte: the step;
  and after any more bytes: the run.
* **`Bytes.counts_streaming`** — words counted by cutting, by position and byte by byte, and the counts of
  two contents one after the other. -/

namespace PipeShell

/-! ## Where words begin -/

/-- **Does a word begin at the position?** There is a byte that is no separator, and it is the first one
or stands behind a separator. -/
def Bytes.WordBeginsAt (data : Bytes) (i : Nat) : Prop :=
  (∃ b ∈ data[i]?, isWordBreak b = false) ∧ (i = 0 ∨ ∃ b ∈ data[i - 1]?, isWordBreak b = true)

instance (data : Bytes) : DecidablePred data.WordBeginsAt :=
  fun _ => inferInstanceAs (Decidable (_ ∧ _))

/-- Does the last byte belong to a word? -/
def Bytes.endsInWord (data : Bytes) : Bool := data.getLast?.any (!isWordBreak ·)

@[simp] theorem Bytes.endsInWord_nil : endsInWord [] = false := rfl

@[simp] theorem Bytes.endsInWord_concat (data : Bytes) (b : UInt8) :
    endsInWord (data ++ [b]) = !isWordBreak b := by
  simp [endsInWord]

/-- **A word is counted where it begins**: at a byte of it that a separator or nothing precedes. -/
theorem Bytes.words_counts_concat (data : Bytes) (b : UInt8) :
    (counts (data ++ [b])).words
      = (counts data).words + if !data.endsInWord && !isWordBreak b then 1 else 0 := by
  have hmeet := words_counts_append data [b]
  -- alone `b` is a word whenever it is no separator; it is one word too many if the last one goes on
  have hjoin : wordGoesOn data [b] = (data.endsInWord && !isWordBreak b) := rfl
  rw [hjoin, words_counts_cons b []] at hmeet
  cases hlast : data.endsInWord <;> cases hb : isWordBreak b <;>
    simpa [hlast, hb, counts] using hmeet

/-- A word begins at a byte of it if the bytes before end in none. -/
theorem Bytes.wordBeginsAt_iff {data : Bytes} {i : Nat} (h : i < data.length) :
    data.WordBeginsAt i ↔ endsInWord (data.take i) = false ∧ isWordBreak data[i] = false := by
  cases i with
  | zero => simp [WordBeginsAt, h]
  | succ i =>
    -- the bytes before end with the one in front of the position
    have hbefore : i < data.length := Nat.lt_of_succ_lt h
    rw [List.take_succ_eq_append_getElem hbefore, endsInWord_concat]
    simp [WordBeginsAt, h, hbefore, and_comm]

/-- **Up to every position, as many words are counted as have begun**, by induction on the position. -/
theorem Bytes.words_counts_take (data : Bytes) {n : Nat} (h : n ≤ data.length) :
    (counts (data.take n)).words = Nat.count data.WordBeginsAt n := by
  induction n with
  | zero => rfl
  | succ n ih =>
    have hn : n < data.length := h
    rw [Nat.count_succ, ← ih hn.le, List.take_succ_eq_append_getElem hn, words_counts_concat]
    simp [wordBeginsAt_iff hn]

/-! ## Counts that are kept up to date -/

/-- **Running counts**: what has been counted so far, and whether the last byte belongs to a word. -/
structure RunningCounts where
  counts : Counts := {}
  inWord : Bool := false
  deriving DecidableEq, Repr

/-- **Read one more byte.** It can end a line and begin a word, and counts as one byte. -/
def RunningCounts.read (r : RunningCounts) (b : UInt8) : RunningCounts where
  counts := r.counts.add
    ⟨if b = lineFeed then 1 else 0, if !r.inWord && !isWordBreak b then 1 else 0, 1⟩
  inWord := !isWordBreak b

/-- What the running counts are after some bytes. -/
def Bytes.running (data : Bytes) : RunningCounts := ⟨data.counts, data.endsInWord⟩

/-- **Running counts are right after one more byte**: the step. -/
theorem Bytes.read_running (data : Bytes) (b : UInt8) :
    data.running.read b = running (data ++ [b]) := by
  have hlines : (data ++ [b]).count lineFeed
      = data.count lineFeed + if b = lineFeed then 1 else 0 := by
    rw [List.count_append, List.count_singleton]
    simp
  have hcounts : counts (data ++ [b]) = data.counts.add
      ⟨if b = lineFeed then 1 else 0, if !data.endsInWord && !isWordBreak b then 1 else 0, 1⟩ := by
    rw [Counts.add, ← words_counts_concat, Bytes.counts, hlines]
    simp [counts]
  rw [running, running, hcounts, endsInWord_concat]
  rfl

/-- **Running counts are right after any more bytes**, by induction on the bytes: the run. -/
theorem Bytes.foldl_read_running (data more : Bytes) :
    more.foldl RunningCounts.read data.running = running (data ++ more) := by
  induction more generalizing data with
  | nil => rw [List.append_nil, List.foldl_nil]
  | cons b more ih =>
    rw [List.foldl_cons, read_running, ih, List.append_assoc, List.singleton_append]

/-- A vertical tab and a space are no words, and the last word may still go on. -/
example : (Text.utf8 "\x0bab c".toList).foldl RunningCounts.read {} = ⟨⟨0, 2, 5⟩, true⟩ := by
  decide +kernel

/-! ## The ways to count agree -/

/-- **Words counted by cutting, by position and byte by byte; and the counts of two contents.** The
number of words is that of the positions where a byte that is no separator comes first or stands behind a
separator, and counts that are kept up to date byte by byte end up the same. Of two contents the lines
and the bytes add up, and so do the words, less one if the last byte of the first and the first byte of
the second are there and both are no separators. -/
theorem Bytes.counts_streaming :
    (∀ data : Bytes,
      (counts data).words = Nat.count data.WordBeginsAt data.length ∧
      (data.foldl RunningCounts.read {}).counts = counts data) ∧
    ∀ as bs : Bytes,
      let sums := (counts as).add (counts bs)
      (counts (as ++ bs)).lines = sums.lines ∧
      (counts (as ++ bs)).words + (if wordGoesOn as bs then 1 else 0) = sums.words ∧
      (counts (as ++ bs)).bytes = sums.bytes := by
  refine ⟨fun data => ⟨?_, ?_⟩, fun as bs => ⟨?_, words_counts_append as bs, ?_⟩⟩
  · rw [← words_counts_take data le_rfl, List.take_length]
  · exact congrArg RunningCounts.counts (foldl_read_running [] data)
  · exact List.count_append
  · exact List.length_append

end PipeShell
