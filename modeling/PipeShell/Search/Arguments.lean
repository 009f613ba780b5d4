import PipeShell.Diagnostic
import PipeShell.Search.Match

/-! # The arguments of a search

A search is asked for as `[-i] [-w] [-A count] pattern [file...]`. Options may be clustered, the count
may be glued to the `A` or be the next argument, and `--` ends the options.

* **`SearchRequest`** — a pattern, where to look for it, and how.
* **`SearchFault`** — what can be wrong with the arguments.
* **`parseSearch`** — the reading of the arguments, which stops at the leftmost fault. -/

namespace PipeShell

/-- How to search. -/
structure SearchOptions where
  mode : MatchMode := {}
  /-- How many lines to show after a matching one. -/
  after : Nat := 0
  deriving DecidableEq, Repr

/-- What to search for. -/
structure SearchRequest where
  options : SearchOptions
  pattern : Text
  /-- The files to search; the input is searched if there are none. -/
  files : List Text
  deriving DecidableEq, Repr

/-- What is wrong with the arguments. -/
inductive SearchFault where
  | noPattern
  /-- A count is missing, is not a row of digits, or is too large. -/
  | badCount
  /-- There is no such option. -/
  | unknownOption (c : Char)
  deriving DecidableEq, Repr

/-- The report of a fault, as that of a command. -/
def SearchFault.diagnostic (cmd : Text) : SearchFault → Diagnostic
  | .noPattern => .noPattern cmd
  | .badCount => .badCount cmd
  | .unknownOption c => .unknownOption cmd ['-', c]

/-! ## Counts -/

/-- One more than the largest count, which is the largest number of 64 bits. -/
def countBound : Nat := UInt64.size

/-- The value of a row of digits. -/
def digitsValue (digits : Text) : Nat := digits.foldl (fun n d => 10 * n + (d.toNat - '0'.toNat)) 0

/-- **The reading of a count**: one or more ASCII digits, without a sign. -/
def parseCount (t : Text) : Option Nat :=
  if t ≠ [] ∧ t.all Char.isDigit = true ∧ digitsValue t < countBound then some (digitsValue t)
  else none

/-! ## Clusters of options -/

/-- The state after a cluster of options. -/
inductive Cluster where
  /-- The cluster is complete. -/
  | complete (o : SearchOptions)
  /-- The cluster ends in an `A`, whose count is the next argument. -/
  | awaitsCount (o : SearchOptions)
  deriving DecidableEq, Repr

/-- The options with a count, if it can be read. -/
def SearchOptions.withCount (o : SearchOptions) (count : Text) : Except SearchFault SearchOptions :=
  match parseCount count with
  | some n => .ok { o with after := n }
  | none => .error .badCount

/-- **The reading of a cluster**, without its dash. -/
def readCluster : SearchOptions → Text → Except SearchFault Cluster
  | o, [] => .ok (.complete o)
  | o, 'i' :: cs => readCluster { o with mode := { o.mode with ignoreCase := true } } cs
  | o, 'w' :: cs => readCluster { o with mode := { o.mode with wholeWords := true } } cs
  | o, ['A'] => .ok (.awaitsCount o)
  -- the rest of the cluster is the count, whatever letters it holds
  | o, 'A' :: count => (o.withCount count).map .complete
  | _, c :: _ => .error (.unknownOption c)

/-! ## Argument lists -/

/-- The cluster that an argument is, without its dash; `-` alone is none. -/
def cluster? : Text → Option Text
  | '-' :: c :: cs => some (c :: cs)
  | _ => none

/-- **The reading of arguments**, after some options have been read. -/
def readSearch : SearchOptions → List Text → Except SearchFault SearchRequest
  | _, [] => .error .noPattern
  | o, arg :: rest =>
    if arg = "--".toList then
      match rest with
      | [] => .error .noPattern
      | pattern :: files => .ok ⟨o, pattern, files⟩
    else match cluster? arg with
      | none => .ok ⟨o, arg, rest⟩
      | some flags =>
        match readCluster o flags with
        | .error e => .error e
        | .ok (.complete o) => readSearch o rest
        | .ok (.awaitsCount o) =>
          match rest with
          | [] => .error .badCount
          | count :: rest =>
            match o.withCount count with
            | .error e => .error e
            | .ok o => readSearch o rest

/-- **The search that some arguments ask for.** -/
def parseSearch (args : List Text) : Except SearchFault SearchRequest := readSearch {} args

example : parseSearch (["-iA2", "-", "f"].map String.toList)
    = .ok ⟨{ mode := { ignoreCase := true }, after := 2 }, ['-'], [['f']]⟩ := rfl

example : parseSearch (["-wA", "+2", "p"].map String.toList) = .error .badCount := rfl

end PipeShell
