import PipeShell.Proofs.Requesting

/-! # Options together and apart

A letter can be cut off from the cluster that it begins, and a count from the `A` before it, each to be
an argument of its own. What follows may be anything, also something that is wrong: the same request or
the same message comes of it.

* **`readSearch_cut_flag`**, **`readSearch_cut_count`** — the two cuts, after any options.
* **`requestOf_clustered`** — the two cuts behind any groups of options. -/

namespace PipeShell

/-! ## Cutting -/

/-- **A letter can be cut off**, unless a single dash is left of the cluster: with its own dash, that would
end the options. -/
theorem readSearch_cut_flag (o : SearchOptions) (flag : Flag) {r : Text} (hne : r ≠ [])
    (hdash : r ≠ ['-']) (rest : List Text) :
    readSearch o (('-' :: flag.letter :: r) :: rest)
      = readSearch o (['-', flag.letter] :: ('-' :: r) :: rest) := by
  have hletter : flag.letter ≠ '-' := by cases flag <;> decide
  -- both read the same cluster, with the letter among the options before it
  have htogether : readCluster o (flag.letter :: r) = readCluster (o.withFlag flag) r :=
    readCluster_letters o [flag] r
  have hapart : readSearch o (['-', flag.letter] :: ('-' :: r) :: rest)
      = readSearch (o.withFlag flag) (('-' :: r) :: rest) :=
    readSearch_group o (.plain flag []) (('-' :: r) :: rest)
  have hcluster : flag.letter :: r ≠ ['-'] := fun heq => hletter (List.cons.inj heq).1
  rw [hapart, readSearch_cluster o (List.cons_ne_nil flag.letter r) hcluster, htogether,
    readSearch_cluster _ hne hdash]

/-- **A count can be cut off**, whether it is one or not. -/
theorem readSearch_cut_count (o : SearchOptions) {n : Text} (hne : n ≠ []) (rest : List Text) :
    readSearch o (('-' :: 'A' :: n) :: rest) = readSearch o (['-', 'A'] :: n :: rest) := by
  exact (readSearch_glued o [] hne rest).trans (readSearch_apart o [] (n :: rest)).symm

/-! ## What comes of the arguments -/

/-- What comes of some arguments does not change if what is read of them does not. -/
theorem requestOf_append_congr {args args' : List Text}
    (h : ∀ o, readSearch o args = readSearch o args') (l : Locale) (groups : List OptionGroup) :
    requestOf l (groups.flatMap OptionGroup.spelled ++ args)
      = requestOf l (groups.flatMap OptionGroup.spelled ++ args') := by
  rw [requestOf, requestOf, parseSearch, parseSearch, readSearch_spelled, readSearch_spelled, h]

/-- **It does not matter whether options stand together or apart.** Behind any groups of options, in
front of any arguments and in either language, the same request or the same message comes of a cluster
and of its first letter and the rest of it as two arguments; and of an `A` with anything glued to it and
of the two as two arguments. The one rest that cannot be cut off is a single dash: with a dash before it
it ends the options, while in the cluster it is no option, and the two never have the same result. -/
theorem requestOf_clustered (l : Locale) (groups : List OptionGroup) (tail : List Text) :
    let request (args : List Text) := requestOf l (groups.flatMap OptionGroup.spelled ++ args)
    (∀ (flag : Flag) (r : Text), r ≠ [] → r ≠ ['-'] →
      request (('-' :: flag.letter :: r) :: tail)
        = request (['-', flag.letter] :: ('-' :: r) :: tail)) ∧
    (∀ n : Text, n ≠ [] →
      request (('-' :: 'A' :: n) :: tail) = request (['-', 'A'] :: n :: tail)) ∧
    ∀ flag : Flag,
      request (['-', flag.letter, '-'] :: tail) ≠ request (['-', flag.letter] :: ['-', '-'] :: tail) := by
  intro request
  refine ⟨fun flag r hne hdash => ?_, fun n hne => ?_, fun flag => ?_⟩
  · exact requestOf_append_congr (fun o => readSearch_cut_flag o flag hne hdash tail) l groups
  · exact requestOf_append_congr (fun o => readSearch_cut_count o hne tail) l groups
  · -- the cluster is faulty; the two arguments are too only if nothing follows them
    have htogether : FaultAt (['-', flag.letter, '-'] :: tail) (.unknownOption '-') := by
      refine FaultAt.unknownOption [flag] '-' [] tail (by decide) (by decide) (by decide) ?_
      cases flag <;> decide
    have hapart : readSearch {} (groups.flatMap OptionGroup.spelled
        ++ ['-', flag.letter] :: ['-', '-'] :: tail)
        = readSearch ((groups.foldl SearchOptions.withGroup {}).withGroup (.plain flag []))
            (['-', '-'] :: tail) := by
      rw [readSearch_spelled]
      exact readSearch_group _ (.plain flag []) _
    show requestOf l (groups.flatMap OptionGroup.spelled ++ ['-', flag.letter, '-'] :: tail)
      ≠ requestOf l (groups.flatMap OptionGroup.spelled ++ ['-', flag.letter] :: ['-', '-'] :: tail)
    rw [requestOf, requestOf, parseSearch_of_faultAt htogether, parseSearch, hapart]
    intro h
    cases tail with
    | nil =>
      have htext := Except.error.inj h
      revert htext
      cases l <;> decide +kernel
    | cons pattern files => cases h

/-- Letters, a count and a character that is no option stand in one cluster or in four arguments. -/
theorem requestOf_clustered_of_fault :
    let o := ["-wA3"].map String.toList
    let messageOf (args : List String) := requestOf .ru (o ++ args.map String.toList)
    (∃ groups : List OptionGroup, o = groups.flatMap OptionGroup.spelled) ∧
      messageOf ["-iwx", "-A", "p"] = messageOf ["-i", "-wx", "-A", "p"] ∧
      messageOf ["-A-", "p"] = messageOf ["-A", "-", "p"] ∧
      messageOf ["-i-", "p"] ≠ messageOf ["-i", "--", "p"] := by
  intro o messageOf
  have hthree : IsCount "3".toList := (parseCount_eq_some_iff (n := 3)).1 rfl |>.1
  let groups : List OptionGroup := [.glued [.wholeWords] ⟨_, hthree⟩]
  obtain ⟨hflag, -, -⟩ := requestOf_clustered .ru groups (["-A", "p"].map String.toList)
  obtain ⟨-, hcount, hdash⟩ := requestOf_clustered .ru groups (["p"].map String.toList)
  exact ⟨⟨groups, rfl⟩, hflag .ignoreCase "wx".toList (by decide) (by decide),
    hcount "-".toList (by decide), hdash .ignoreCase⟩

end PipeShell
