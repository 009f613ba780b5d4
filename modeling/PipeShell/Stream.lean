import PipeShell.Text

/-! # Streams that can fail

* **`Source`** — an input: its bytes, and whether it fails after them instead of ending.
* **`Sink`** — an output that may accept only so many bytes in all.
* **`StreamFailure`** — what failed, and in the course of what. -/

namespace PipeShell

/-! ## Failures -/

/-- How a stream fails. -/
inductive StreamFault where
  /-- A sink accepts no more. -/
  | sinkFull
  /-- A source breaks off. -/
  | sourceFailed
  deriving DecidableEq, Repr

/-- The fault in words. -/
def StreamFault.message : StreamFault → Text
  | .sinkFull => "sink full".toList
  | .sourceFailed => "source failed".toList

/-- What was being done to the stream. -/
inductive Activity where
  | readingInput
  | copyingInput
  | readingCommandLine
  deriving DecidableEq, Repr

/-- The activity in words. -/
def Activity.message : Activity → Text
  | .readingInput => "reading standard input".toList
  | .copyingInput => "copying standard input".toList
  | .readingCommandLine => "reading command line".toList

/-- A failure of a stream, in the course of an activity where that is worth saying. -/
structure StreamFailure where
  activity : Option Activity
  fault : StreamFault
  deriving DecidableEq, Repr

/-- The failure in words: the activity, if it is known, then the fault. -/
def StreamFailure.message (f : StreamFailure) : Text :=
  match f.activity with
  | none => f.fault.message
  | some a => a.message ++ ": ".toList ++ f.fault.message

/-- A sink is full, in the course of nothing in particular. -/
def StreamFailure.sinkFull : StreamFailure := ⟨none, .sinkFull⟩

/-! ## Sources -/

/-- An input: the bytes that can be read from it, and whether it then fails. -/
structure Source where
  data : Bytes := []
  fails : Bool := false
  deriving DecidableEq, Repr

/-! ## Sinks -/

/-- An output: what has been written to it, and how many bytes it accepts in all, if it is bounded. -/
structure Sink where
  limit : Option Nat := none
  written : Bytes := []
  deriving DecidableEq, Repr

/-- **Does a write fit?** Writing nothing always does. -/
def Sink.accepts (s : Sink) (data : Bytes) : Bool :=
  match s.limit with
  | none => true
  | some n => data.length ≤ n - s.written.length

/-- **The sink after a write.** Of a write that does not fit, the bytes that do are written. -/
def Sink.push (s : Sink) (data : Bytes) : Sink :=
  match s.limit with
  | none => { s with written := s.written ++ data }
  | some n => { s with written := s.written ++ data.take (n - s.written.length) }

@[simp] theorem Sink.accepts_nil (s : Sink) : s.accepts [] = true := by
  unfold accepts
  split <;> simp

/-- Writing nothing changes nothing. -/
@[simp] theorem Sink.push_nil (s : Sink) : s.push [] = s := by
  unfold push
  split <;> simp

/-- A sink without a limit accepts everything. -/
@[simp] theorem Sink.accepts_unbounded (w data : Bytes) :
    Sink.accepts { limit := none, written := w } data = true := rfl

@[simp] theorem Sink.push_unbounded (w data : Bytes) :
    Sink.push { limit := none, written := w } data = { limit := none, written := w ++ data } := rfl

/-- **It does not matter in how many pieces bytes are written**, whether they fit or not. -/
theorem Sink.push_append (s : Sink) (data more : Bytes) :
    s.push (data ++ more) = (s.push data).push more := by
  cases s with
  | mk limit written =>
    cases limit with
    | none => simp [push]
    | some n =>
      have hroom : n - (written ++ data.take (n - written.length)).length
          = n - written.length - data.length := by
        rw [List.length_append, List.length_take]
        omega
      simp only [push, hroom, List.take_append, List.append_assoc]

/-- Bytes fit exactly if a first piece fits, and then the rest. -/
theorem Sink.accepts_append (s : Sink) (data more : Bytes) :
    s.accepts (data ++ more) = (s.accepts data && (s.push data).accepts more) := by
  cases s with
  | mk limit written =>
    cases limit with
    | none => rfl
    | some n =>
      simp only [accepts, push, List.length_append, List.length_take, ← Bool.decide_and,
        decide_eq_decide]
      omega

end PipeShell
