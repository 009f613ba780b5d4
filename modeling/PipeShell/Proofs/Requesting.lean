import Mathlib.Algebra.Group.Nat.Defs
import Mathlib.Logic.ExistsUnique
import PipeShell.Command

/-! # The grammar of the arguments of a search

A search is asked for by groups of options, a pattern and files. Here the ways to ask for it are data,
with their spellings as lists of arguments, and `parseSearch` is shown to read exactly these lists: each
of them in one way, and every other one up to the leftmost thing that is wrong with it.

* **`OptionGroup`** — options that are spelled together; `readSearch_spelled` reads them.
* **`SearchSpelling`** — a way to ask for a search, and the request that it makes.
* **`SearchSpelling.eq_of_spelled_eq`** — two ways are never spelled alike.
* **`FaultAt`** — what can be wrong after some groups of options.
* **`isAccountedFor`** — every list of arguments is one or the other.
* **`requestOf_grammar`** — which requests and which messages come of which arguments. -/

namespace PipeShell

/-! ## Counts -/

/-- **Is a text a count?** It is a row of one or more ASCII digits, with zeros in front or without, and
its value is a number of 64 bits. -/
structure IsCount (t : Text) : Prop where
  ne_nil : t ≠ []
  digits : ∀ c ∈ t, '0' ≤ c ∧ c ≤ '9'
  value_le : digitsValue t ≤ 2 ^ 64 - 1

/-- The counts are what `parseCount` reads. -/
theorem parseCount_eq_some_iff {t : Text} {n : Nat} :
    parseCount t = some n ↔ IsCount t ∧ digitsValue t = n := by
  have hdigit (c : Char) : c.isDigit = true ↔ '0' ≤ c ∧ c ≤ '9' := by
    simp [Char.isDigit, Char.le_def]
  have hcount : IsCount t ↔ t ≠ [] ∧ t.all Char.isDigit = true ∧ digitsValue t < countBound := by
    simp only [List.all_eq_true, hdigit]
    constructor
    · intro h
      have hle := h.value_le
      exact ⟨h.ne_nil, h.digits, by simp only [countBound, UInt64.size]; omega⟩
    · rintro ⟨hne, hdigits, hlt⟩
      simp only [countBound, UInt64.size] at hlt
      exact ⟨hne, hdigits, by omega⟩
  rw [parseCount, hcount]
  split
  next h => simp [h]
  next h => simp only [h, reduceCtorEq, false_and]

/-- A text that is a count. -/
@[ext]
structure Count where
  text : Text
  isCount : IsCount text

/-- The number that a count gives. -/
def Count.value (n : Count) : Nat := digitsValue n.text

/-- A count is taken over into the options. -/
theorem SearchOptions.withCount_count (o : SearchOptions) (n : Count) :
    o.withCount n.text = .ok { o with after := n.value } := by
  rw [withCount, parseCount_eq_some_iff.2 ⟨n.isCount, rfl⟩]
  rfl

/-- What is no count is rejected. -/
theorem SearchOptions.withCount_of_not_isCount (o : SearchOptions) {t : Text} (h : ¬ IsCount t) :
    o.withCount t = .error .badCount := by
  have hnone : parseCount t = none :=
    Option.eq_none_iff_forall_ne_some.2 fun n hn => h (parseCount_eq_some_iff.1 hn).1
  rw [withCount, hnone]

/-! ## Groups of options -/

/-- An option without a count. -/
inductive Flag where
  | ignoreCase
  | wholeWords
  deriving DecidableEq, Repr

/-- The letter of an option. -/
def Flag.letter : Flag → Char
  | .ignoreCase => 'i'
  | .wholeWords => 'w'

/-- **Options that are spelled together**, behind one dash. -/
inductive OptionGroup where
  /-- One letter or more: `-iw`. -/
  | plain (first : Flag) (more : List Flag)
  /-- Letters, and an `A` with its count behind it: `-iA2`. -/
  | glued (flags : List Flag) (count : Count)
  /-- Letters and an `A`, whose count is the next argument: `-iA 2`. -/
  | apart (flags : List Flag) (count : Count)

/-- The letters of a group, up to the `A`. -/
def OptionGroup.flags : OptionGroup → List Flag
  | .plain first more => first :: more
  | .glued flags _ => flags
  | .apart flags _ => flags

/-- The count of a group, if it has one. -/
def OptionGroup.count? : OptionGroup → Option Count
  | .plain _ _ => none
  | .glued _ n => some n
  | .apart _ n => some n

/-- What stands in the first argument of a group behind its letters. -/
def OptionGroup.suffix : OptionGroup → Text
  | .plain _ _ => []
  | .glued _ n => 'A' :: n.text
  | .apart _ _ => ['A']

/-- The arguments of a group behind the first. -/
def OptionGroup.following : OptionGroup → List Text
  | .plain _ _ => []
  | .glued _ _ => []
  | .apart _ n => [n.text]

/-- The letters of some options. -/
def letters (flags : List Flag) : Text := flags.map Flag.letter

/-- **The arguments that spell a group.** -/
def OptionGroup.spelled (g : OptionGroup) : List Text :=
  ('-' :: (letters g.flags ++ g.suffix)) :: g.following

/-- The options after a letter. -/
def SearchOptions.withFlag (o : SearchOptions) : Flag → SearchOptions
  | .ignoreCase => { o with mode := { o.mode with ignoreCase := true } }
  | .wholeWords => { o with mode := { o.mode with wholeWords := true } }

/-- The options after some letters. -/
def SearchOptions.withFlags (o : SearchOptions) (flags : List Flag) : SearchOptions :=
  flags.foldl withFlag o

/-- The options after a group. -/
def SearchOptions.withGroup (o : SearchOptions) (g : OptionGroup) : SearchOptions :=
  match g.count? with
  | some n => { o.withFlags g.flags with after := n.value }
  | none => o.withFlags g.flags

/-! ## Reading a group -/

/-- Letters are read one by one. -/
theorem readCluster_letters (o : SearchOptions) (flags : List Flag) (cs : Text) :
    readCluster o (letters flags ++ cs) = readCluster (o.withFlags flags) cs := by
  induction flags generalizing o with
  | nil => rfl
  | cons flag flags ih =>
    cases flag with
    | ignoreCase => exact ih _
    | wholeWords => exact ih _

/-- What is glued to an `A` is its count. -/
theorem readCluster_glued (o : SearchOptions) {count : Text} (h : count ≠ []) :
    readCluster o ('A' :: count) = (o.withCount count).map .complete := by
  cases count with
  | nil => exact absurd rfl h
  | cons c cs => rfl

/-- A character that is no option is rejected. -/
theorem readCluster_unknown (o : SearchOptions) {c : Char} (hi : c ≠ 'i') (hw : c ≠ 'w')
    (hA : c ≠ 'A') (cs : Text) : readCluster o (c :: cs) = .error (.unknownOption c) := by
  rw [readCluster.eq_def]
  split <;> simp_all

/-- **An argument with a cluster of options**, and what is read after it. -/
theorem readSearch_cluster (o : SearchOptions) {flags : Text} (hne : flags ≠ [])
    (hdash : flags ≠ ['-']) (rest : List Text) :
    readSearch o (('-' :: flags) :: rest) = match readCluster o flags with
      | .error e => .error e
      | .ok (.complete o) => readSearch o rest
      | .ok (.awaitsCount o) =>
        match rest with
        | [] => .error .badCount
        | count :: rest =>
          match o.withCount count with
          | .error e => .error e
          | .ok o => readSearch o rest := by
  cases flags with
  | nil => exact absurd rfl hne
  | cons c cs =>
    have hend : '-' :: c :: cs ≠ "--".toList := fun heq => hdash (List.cons.inj heq).2
    rw [readSearch.eq_def]
    exact if_neg hend

/-- A cluster that holds an `A` is no dash. -/
theorem letters_append_A_ne (flags : List Flag) (cs : Text) :
    letters flags ++ 'A' :: cs ≠ [] ∧ letters flags ++ 'A' :: cs ≠ ['-'] := by
  refine ⟨by simp, fun h => ?_⟩
  have hmem : 'A' ∈ letters flags ++ 'A' :: cs := by simp
  rw [h] at hmem
  exact absurd hmem (by decide)

/-- **A count behind the `A`** is read, whether it is one or not. -/
theorem readSearch_glued (o : SearchOptions) (flags : List Flag) {count : Text} (h : count ≠ [])
    (rest : List Text) :
    readSearch o (('-' :: (letters flags ++ 'A' :: count)) :: rest)
      = match (o.withFlags flags).withCount count with
        | .error e => .error e
        | .ok o => readSearch o rest := by
  obtain ⟨hne, hdash⟩ := letters_append_A_ne flags count
  rw [readSearch_cluster o hne hdash, readCluster_letters, readCluster_glued _ h]
  cases hcount : (o.withFlags flags).withCount count with
  | error e => simp only [Except.map]
  | ok o' => simp only [Except.map]

/-- **An `A` at the end** takes the next argument for its count. -/
theorem readSearch_apart (o : SearchOptions) (flags : List Flag) (rest : List Text) :
    readSearch o (('-' :: (letters flags ++ ['A'])) :: rest) = match rest with
      | [] => .error .badCount
      | count :: rest =>
        match (o.withFlags flags).withCount count with
        | .error e => .error e
        | .ok o => readSearch o rest := by
  obtain ⟨hne, hdash⟩ := letters_append_A_ne flags []
  have hawaits : readCluster (o.withFlags flags) ['A'] = .ok (.awaitsCount (o.withFlags flags)) := rfl
  rw [readSearch_cluster o hne hdash, readCluster_letters, hawaits]

/-- What stands behind the dash of a group is neither nothing nor a dash. -/
theorem OptionGroup.cluster_ne (g : OptionGroup) :
    letters g.flags ++ g.suffix ≠ [] ∧ (letters g.flags ++ g.suffix).head? ≠ some '-' := by
  have hletter (flag : Flag) : flag.letter ≠ '-' := by cases flag <;> decide
  have hletters (flag : Flag) (flags : List Flag) (cs : Text) :
      letters (flag :: flags) ++ cs ≠ [] ∧ (letters (flag :: flags) ++ cs).head? ≠ some '-' := by
    simp [letters, hletter]
  cases g with
  | plain first more => exact hletters first more []
  | glued flags n =>
    cases flags with
    | nil => simp [OptionGroup.flags, suffix, letters]
    | cons flag flags => exact hletters flag flags _
  | apart flags n =>
    cases flags with
    | nil => simp [OptionGroup.flags, suffix, letters]
    | cons flag flags => exact hletters flag flags _

/-- **A group of options is read** into the options. -/
theorem readSearch_group (o : SearchOptions) (g : OptionGroup) (rest : List Text) :
    readSearch o (g.spelled ++ rest) = readSearch (o.withGroup g) rest := by
  cases g with
  | plain first more =>
    obtain ⟨hne, hdash⟩ := OptionGroup.cluster_ne (.plain first more)
    have hhead : letters (first :: more) ++ [] ≠ ['-'] := fun heq =>
      hdash (congrArg List.head? heq)
    have hread := readSearch_cluster o hne hhead rest
    rw [readCluster_letters] at hread
    exact hread
  | glued flags n =>
    have hread := readSearch_glued o flags n.isCount.ne_nil rest
    rw [SearchOptions.withCount_count] at hread
    exact hread
  | apart flags n =>
    have hread := readSearch_apart o flags (n.text :: rest)
    simp only [SearchOptions.withCount_count] at hread
    exact hread

/-- **Groups of options are read** one after the other. -/
theorem readSearch_spelled (o : SearchOptions) (groups : List OptionGroup) (rest : List Text) :
    readSearch o (groups.flatMap OptionGroup.spelled ++ rest)
      = readSearch (groups.foldl SearchOptions.withGroup o) rest := by
  induction groups generalizing o with
  | nil => rfl
  | cons g groups ih =>
    rw [List.flatMap_cons, List.append_assoc, readSearch_group, ih, List.foldl_cons]

/-! ## The request -/

/-- **The options that some groups make.** A letter counts wherever it stands in front of the `A` of its
group; of several counts the last one counts. -/
def optionsOf (groups : List OptionGroup) : SearchOptions where
  mode :=
    { ignoreCase := groups.any (·.flags.contains .ignoreCase)
      wholeWords := groups.any (·.flags.contains .wholeWords) }
  after := (groups.filterMap OptionGroup.count?).getLast?.elim 0 Count.value

/-- Letters are added to the mode that there is. -/
theorem SearchOptions.withFlags_eq (o : SearchOptions) (flags : List Flag) :
    o.withFlags flags =
      { mode :=
          { ignoreCase := o.mode.ignoreCase || flags.contains .ignoreCase
            wholeWords := o.mode.wholeWords || flags.contains .wholeWords }
        after := o.after } := by
  induction flags generalizing o with
  | nil => simp [withFlags]
  | cons flag flags ih =>
    have hstep : o.withFlags (flag :: flags) = (o.withFlag flag).withFlags flags := rfl
    rw [hstep, ih]
    cases flag <;> simp [withFlag]

/-- **Groups are added to the options that there are**: by induction on the groups. -/
theorem SearchOptions.foldl_withGroup (o : SearchOptions) (groups : List OptionGroup) :
    groups.foldl withGroup o =
      { mode :=
          { ignoreCase := o.mode.ignoreCase || (optionsOf groups).mode.ignoreCase
            wholeWords := o.mode.wholeWords || (optionsOf groups).mode.wholeWords }
        after := (groups.filterMap OptionGroup.count?).getLast?.elim o.after Count.value } := by
  induction groups generalizing o with
  | nil => simp [optionsOf]
  | cons g groups ih =>
    have hmode : (o.withGroup g).mode = (o.withFlags g.flags).mode := by
      unfold withGroup
      split <;> rfl
    have hafter : (o.withGroup g).after = g.count?.elim o.after Count.value := by
      unfold withGroup
      split
      next n hn => rw [hn]; rfl
      next hn => rw [hn, withFlags_eq]; rfl
    -- letters are added to those before them, a count takes the place of the one before it
    rw [List.foldl_cons, ih, hmode, hafter, withFlags_eq]
    cases hn : g.count? with
    | none => simp [optionsOf, hn, Bool.or_assoc]
    | some n =>
      simp only [optionsOf, List.any_cons, Bool.or_assoc, List.filterMap_cons_some hn,
        List.getLast?_cons]
      cases (groups.filterMap OptionGroup.count?).getLast? <;> rfl

/-- **Can a text be a pattern without `--` before it?** It does not begin with a dash, or it is one. -/
def IsPlainPattern (t : Text) : Prop := t.head? ≠ some '-' ∨ t = ['-']

/-- **A way to ask for a search.** -/
structure SearchSpelling where
  groups : List OptionGroup
  /-- Does `--` stand before the pattern? -/
  ended : Bool
  pattern : Text
  files : List Text
  isPlainPattern : ended = false → IsPlainPattern pattern

/-- What follows the groups of options. -/
def SearchSpelling.operands (sp : SearchSpelling) : List Text :=
  (if sp.ended then ["--".toList] else []) ++ sp.pattern :: sp.files

/-- **The arguments that spell it.** -/
def SearchSpelling.spelled (sp : SearchSpelling) : List Text :=
  sp.groups.flatMap OptionGroup.spelled ++ sp.operands

/-- **The request that it makes.** -/
def SearchSpelling.request (sp : SearchSpelling) : SearchRequest :=
  ⟨optionsOf sp.groups, sp.pattern, sp.files⟩

/-- An argument is no cluster exactly if it can be a pattern. -/
theorem cluster?_eq_none_iff {arg : Text} : cluster? arg = none ↔ IsPlainPattern arg := by
  cases arg with
  | nil => simp [cluster?, IsPlainPattern]
  | cons c cs =>
    by_cases hc : c = '-'
    · subst hc
      cases cs <;> simp [cluster?, IsPlainPattern]
    · simp [cluster?, IsPlainPattern, hc]

/-- **What is spelled is read.** -/
theorem SearchSpelling.parseSearch_spelled (sp : SearchSpelling) :
    parseSearch sp.spelled = .ok sp.request := by
  obtain ⟨groups, ended, pattern, files, hplain⟩ := sp
  have hoptions : groups.foldl SearchOptions.withGroup {} = optionsOf groups := by
    rw [SearchOptions.foldl_withGroup]
    simp [optionsOf]
  rw [parseSearch, spelled, readSearch_spelled, hoptions]
  cases ended with
  | true => rfl
  | false =>
    have hcluster := cluster?_eq_none_iff.2 (hplain rfl)
    have hend : pattern ≠ "--".toList := by
      rintro rfl
      cases hcluster
    have hoperands : operands ⟨groups, false, pattern, files, hplain⟩ = pattern :: files := rfl
    rw [hoperands, readSearch.eq_def]
    simp only [hend, if_false, hcluster]
    rfl

/-! ## One way to spell a request -/

/-- Letters end where something else begins. -/
theorem letters_append_inj {fs gs : List Flag} {xs ys : Text}
    (hxs : ∀ flag : Flag, xs.head? ≠ some flag.letter) (hys : ∀ flag : Flag, ys.head? ≠ some flag.letter)
    (h : letters fs ++ xs = letters gs ++ ys) : fs = gs ∧ xs = ys := by
  induction fs generalizing gs with
  | nil =>
    cases gs with
    | nil => exact ⟨rfl, h⟩
    | cons g gs => exact absurd (by rw [show xs = letters (g :: gs) ++ ys from h]; rfl) (hxs g)
  | cons f fs ih =>
    cases gs with
    | nil => exact absurd (by rw [show ys = letters (f :: fs) ++ xs from h.symm]; rfl) (hys f)
    | cons g gs =>
      obtain ⟨hletter, hrest⟩ := List.cons.inj h
      have hflag : f = g := by
        revert hletter
        cases f <;> cases g <;> decide
      obtain ⟨hflags, htexts⟩ := ih hrest
      exact ⟨by rw [hflag, hflags], htexts⟩

/-- No letter stands behind the letters of a group. -/
theorem OptionGroup.head?_suffix_ne (g : OptionGroup) (flag : Flag) :
    g.suffix.head? ≠ some flag.letter := by
  cases g <;> cases flag <;> simp [suffix, Flag.letter]

/-- **Groups are spelled alike only if they are the same**, also if more arguments follow them. -/
theorem OptionGroup.spelled_append_inj {g g' : OptionGroup} {xs ys : List Text}
    (h : g.spelled ++ xs = g'.spelled ++ ys) : g = g' ∧ xs = ys := by
  obtain ⟨hfirst, hrest⟩ := List.cons.inj h
  obtain ⟨hflags, hsuffix⟩ :=
    letters_append_inj g.head?_suffix_ne g'.head?_suffix_ne (List.cons.inj hfirst).2
  -- what stands behind the letters tells the three kinds of groups apart
  cases g with
  | plain first more =>
    cases g' with
    | plain first' more' =>
      obtain ⟨hhead, htail⟩ := List.cons.inj hflags
      exact ⟨by rw [hhead, htail], hrest⟩
    | glued flags n => cases hsuffix
    | apart flags n => cases hsuffix
  | glued flags n =>
    cases g' with
    | plain first more => cases hsuffix
    | glued flags' n' =>
      have hcount : n = n' := Count.ext (List.cons.inj hsuffix).2
      have hflags : flags = flags' := hflags
      exact ⟨by rw [hflags, hcount], hrest⟩
    | apart flags' n' => exact absurd (List.cons.inj hsuffix).2 n.isCount.ne_nil
  | apart flags n =>
    cases g' with
    | plain first more => cases hsuffix
    | glued flags' n' => exact absurd (List.cons.inj hsuffix).2.symm n'.isCount.ne_nil
    | apart flags' n' =>
      obtain ⟨htext, hrest⟩ := List.cons.inj hrest
      have hcount : n = n' := Count.ext htext
      have hflags : flags = flags' := hflags
      exact ⟨by rw [hflags, hcount], hrest⟩

/-- What follows the groups of options does not begin with one. -/
theorem SearchSpelling.operands_ne (sp : SearchSpelling) (g : OptionGroup) (xs : List Text) :
    sp.operands ≠ g.spelled ++ xs := by
  obtain ⟨groups, ended, pattern, files, hplain⟩ := sp
  obtain ⟨hne, hdash⟩ := g.cluster_ne
  intro h
  cases ended with
  | true =>
    have hfirst : "--".toList = '-' :: (letters g.flags ++ g.suffix) := (List.cons.inj h).1
    have hcluster : ['-'] = letters g.flags ++ g.suffix := (List.cons.inj hfirst).2
    exact hdash (by rw [← hcluster]; rfl)
  | false =>
    have hpattern : pattern = '-' :: (letters g.flags ++ g.suffix) := (List.cons.inj h).1
    rcases hplain rfl with hhead | hone
    · exact hhead (by rw [hpattern]; rfl)
    · exact hne (List.cons.inj (hpattern.symm.trans hone)).2

/-- **Groups end where none begins.** -/
theorem groups_append_inj {gs gs' : List OptionGroup} {xs ys : List Text}
    (hxs : ∀ g zs, xs ≠ OptionGroup.spelled g ++ zs) (hys : ∀ g zs, ys ≠ OptionGroup.spelled g ++ zs)
    (h : gs.flatMap OptionGroup.spelled ++ xs = gs'.flatMap OptionGroup.spelled ++ ys) :
    gs = gs' ∧ xs = ys := by
  induction gs generalizing gs' with
  | nil =>
    cases gs' with
    | nil => exact ⟨rfl, h⟩
    | cons g' gs' =>
      rw [List.flatMap_cons, List.append_assoc] at h
      exact absurd h (hxs g' _)
  | cons g gs ih =>
    cases gs' with
    | nil =>
      rw [List.flatMap_cons, List.append_assoc] at h
      exact absurd h.symm (hys g _)
    | cons g' gs' =>
      rw [List.flatMap_cons, List.flatMap_cons, List.append_assoc, List.append_assoc] at h
      obtain ⟨hg, hrest⟩ := OptionGroup.spelled_append_inj h
      obtain ⟨hgs, hends⟩ := ih hrest
      exact ⟨by rw [hg, hgs], hends⟩

/-- The two dashes that end the options cannot be a pattern without them. -/
theorem not_isPlainPattern_dashes : ¬ IsPlainPattern "--".toList := by
  rintro (h | h)
  · exact h rfl
  · cases h

/-- **Two ways to ask for a search are never spelled alike.** -/
theorem SearchSpelling.eq_of_spelled_eq {sp sp' : SearchSpelling} (h : sp.spelled = sp'.spelled) :
    sp = sp' := by
  obtain ⟨hgroups, hoperands⟩ := groups_append_inj sp.operands_ne sp'.operands_ne h
  obtain ⟨groups, ended, pattern, files, hplain⟩ := sp
  obtain ⟨groups', ended', pattern', files', hplain'⟩ := sp'
  obtain rfl : groups = groups' := hgroups
  -- two dashes are no pattern without dashes before it, so both ways have them or neither has
  cases ended with
  | true =>
    cases ended' with
    | true =>
      obtain ⟨-, hrest⟩ := List.cons.inj hoperands
      obtain ⟨rfl, rfl⟩ := List.cons.inj hrest
      rfl
    | false =>
      have hpattern : "--".toList = pattern' := (List.cons.inj hoperands).1
      exact absurd (hplain' rfl) (hpattern ▸ not_isPlainPattern_dashes)
  | false =>
    cases ended' with
    | true =>
      have hpattern : pattern = "--".toList := (List.cons.inj hoperands).1
      exact absurd (hplain rfl) (hpattern ▸ not_isPlainPattern_dashes)
    | false =>
      obtain ⟨rfl, rfl⟩ := List.cons.inj hoperands
      rfl

/-! ## Faults -/

/-- **What can be wrong with the arguments** behind some groups of options. The first argument shown is
the one that is wrong, or whose count is. -/
inductive FaultAt : List Text → SearchFault → Prop where
  /-- There are no more arguments. -/
  | noPattern : FaultAt [] .noPattern
  /-- There are none behind `--`. -/
  | noPatternBehindDashes : FaultAt ["--".toList] .noPattern
  /-- Behind some letters stands a character that is no option. -/
  | unknownOption (flags : List Flag) (c : Char) (cs : Text) (rest : List Text) :
    c ≠ 'i' → c ≠ 'w' → c ≠ 'A' → '-' :: (letters flags ++ c :: cs) ≠ "--".toList →
    FaultAt (('-' :: (letters flags ++ c :: cs)) :: rest) (.unknownOption c)
  /-- What is glued to the `A` is no count. -/
  | gluedCount (flags : List Flag) (count : Text) (rest : List Text) : count ≠ [] → ¬ IsCount count →
    FaultAt (('-' :: (letters flags ++ 'A' :: count)) :: rest) .badCount
  /-- The argument behind the `A` is no count. -/
  | nextCount (flags : List Flag) (count : Text) (rest : List Text) : ¬ IsCount count →
    FaultAt (('-' :: (letters flags ++ ['A'])) :: count :: rest) .badCount
  /-- There is no argument behind the `A`. -/
  | noCount (flags : List Flag) : FaultAt ['-' :: (letters flags ++ ['A'])] .badCount

/-- **A fault is met**, whatever options have been read. -/
theorem FaultAt.readSearch_eq {args : List Text} {e : SearchFault} (h : FaultAt args e)
    (o : SearchOptions) : readSearch o args = .error e := by
  cases h with
  | noPattern => rfl
  | noPatternBehindDashes => rfl
  | unknownOption flags c cs rest hi hw hA hend =>
    have hdash : letters flags ++ c :: cs ≠ ['-'] := fun heq => hend (by rw [heq]; rfl)
    rw [readSearch_cluster o (by simp) hdash, readCluster_letters, readCluster_unknown _ hi hw hA]
  | gluedCount flags count rest hne hcount =>
    rw [readSearch_glued o flags hne, SearchOptions.withCount_of_not_isCount _ hcount]
  | nextCount flags count rest hcount =>
    rw [readSearch_apart]
    simp only [SearchOptions.withCount_of_not_isCount _ hcount]
  | noCount flags => rw [readSearch_apart]

/-- Every cluster begins with some letters, behind which something else stands or nothing. -/
theorem exists_letters (cluster : Text) :
    ∃ flags rest, cluster = letters flags ++ rest ∧ ∀ c ∈ rest.head?, c ≠ 'i' ∧ c ≠ 'w' := by
  induction cluster with
  | nil => exact ⟨[], [], rfl, by simp⟩
  | cons c cs ih =>
    obtain ⟨flags, rest, rfl, hrest⟩ := ih
    by_cases hi : c = 'i'
    · exact ⟨.ignoreCase :: flags, rest, by rw [hi]; rfl, hrest⟩
    by_cases hw : c = 'w'
    · exact ⟨.wholeWords :: flags, rest, by rw [hw]; rfl, hrest⟩
    · exact ⟨[], c :: (letters flags ++ rest), rfl, by simp [hi, hw]⟩

/-- **Can some arguments be accounted for?** They spell a search, or there is a fault in them behind some
groups of options. -/
def IsAccountedFor (args : List Text) : Prop :=
  (∃ sp : SearchSpelling, sp.spelled = args) ∨
    ∃ (groups : List OptionGroup) (tail : List Text) (e : SearchFault),
      args = groups.flatMap OptionGroup.spelled ++ tail ∧ FaultAt tail e

/-- One group more makes no difference to that. -/
theorem IsAccountedFor.cons {args : List Text} (h : IsAccountedFor args) (g : OptionGroup) :
    IsAccountedFor (g.spelled ++ args) := by
  rcases h with ⟨⟨groups, ended, pattern, files, hplain⟩, rfl⟩ | ⟨groups, tail, e, rfl, hfault⟩
  · exact .inl ⟨⟨g :: groups, ended, pattern, files, hplain⟩, List.append_assoc ..⟩
  · exact .inr ⟨g :: groups, tail, e, (List.append_assoc ..).symm, hfault⟩

/-- Arguments that begin with a fault are accounted for. -/
theorem FaultAt.isAccountedFor {args : List Text} {e : SearchFault} (h : FaultAt args e) :
    IsAccountedFor args := .inr ⟨[], args, e, rfl, h⟩

/-- What cannot be a pattern begins with a dash. -/
theorem exists_of_not_isPlainPattern {arg : Text} (h : ¬ IsPlainPattern arg) :
    ∃ cluster, arg = '-' :: cluster := by
  cases arg with
  | nil => exact absurd (.inl (by simp)) h
  | cons c cs =>
    by_cases hc : c = '-'
    · exact ⟨cs, by rw [hc]⟩
    · exact absurd (.inl (by simpa using hc)) h

/-- An argument with an `A` is accounted for if the arguments behind it are. -/
theorem isAccountedFor_of_A (flags : List Flag) (cs : Text) {rest : List Text}
    (h : IsAccountedFor rest) (htail : IsAccountedFor rest.tail) :
    IsAccountedFor (('-' :: (letters flags ++ 'A' :: cs)) :: rest) := by
  by_cases hcs : cs = []
  · subst hcs
    cases rest with
    | nil => exact (FaultAt.noCount flags).isAccountedFor
    | cons count rest =>
      by_cases hcount : IsCount count
      · exact htail.cons (.apart flags ⟨count, hcount⟩)
      · exact (FaultAt.nextCount flags count rest hcount).isAccountedFor
  · by_cases hcount : IsCount cs
    · exact h.cons (.glued flags ⟨cs, hcount⟩)
    · exact (FaultAt.gluedCount flags cs rest hcs hcount).isAccountedFor

/-- **All arguments can be accounted for**, by induction on their number: an argument ends the options,
or is a pattern, or begins with letters, and what stands behind these decides. -/
theorem isAccountedFor (args : List Text) : IsAccountedFor args := by
  match args with
  | [] => exact FaultAt.noPattern.isAccountedFor
  | arg :: rest =>
    by_cases hend : arg = "--".toList
    · subst hend
      cases rest with
      | nil => exact FaultAt.noPatternBehindDashes.isAccountedFor
      | cons pattern files => exact .inl ⟨⟨[], true, pattern, files, by simp⟩, rfl⟩
    by_cases hplain : IsPlainPattern arg
    · exact .inl ⟨⟨[], false, arg, rest, fun _ => hplain⟩, rfl⟩
    obtain ⟨cluster, rfl⟩ := exists_of_not_isPlainPattern hplain
    obtain ⟨flags, behind, rfl, hbehind⟩ := exists_letters cluster
    cases behind with
    | nil =>
      cases flags with
      | nil => exact absurd (.inr rfl) hplain
      | cons first more => exact (isAccountedFor rest).cons (.plain first more)
    | cons c cs =>
      obtain ⟨hi, hw⟩ := hbehind c rfl
      by_cases hA : c = 'A'
      · -- the count may be the next argument, so the induction has to reach the one behind it too
        subst hA
        exact isAccountedFor_of_A flags cs (isAccountedFor rest) (isAccountedFor rest.tail)
      · exact (FaultAt.unknownOption flags c cs rest hi hw hA hend).isAccountedFor
termination_by args.length
decreasing_by all_goals simp only [List.length_cons, List.length_tail]; omega

/-! ## Arguments and messages -/

/-- **What some arguments ask for**, or the message that says what is wrong with them. -/
def requestOf (l : Locale) (args : List Text) : Except Text SearchRequest :=
  (parseSearch args).mapError fun e => (e.diagnostic Command.grep.name).text l

/-- Behind some groups of options, a fault is reported. -/
theorem parseSearch_of_faultAt {tail : List Text} {e : SearchFault} (h : FaultAt tail e)
    (groups : List OptionGroup) :
    parseSearch (groups.flatMap OptionGroup.spelled ++ tail) = .error e := by
  rw [parseSearch, readSearch_spelled, h.readSearch_eq]

/-- **The arguments of a search are read by their grammar.** They are accepted exactly if they are groups
of options, then a pattern that does not begin with a dash or is one, or `--` and any pattern, and then
any files; there is only one way to see them so. The request asks for what stands in them: a letter
counts if it stands in some group, in front of its `A`, and of several counts the last one counts.
Otherwise the message is about the leftmost thing that is wrong, everything in front of it being groups
of options: a character that is no option, a count that is missing or is none, or a pattern that is
missing. -/
theorem requestOf_grammar (l : Locale) (args : List Text) :
    ((∃ r, requestOf l args = .ok r) ↔ ∃! sp : SearchSpelling, sp.spelled = args) ∧
    (∀ sp : SearchSpelling, sp.spelled = args → requestOf l args = .ok sp.request) ∧
    ∀ message, requestOf l args = .error message ↔
      ∃ (groups : List OptionGroup) (tail : List Text) (e : SearchFault),
        args = groups.flatMap OptionGroup.spelled ++ tail ∧ FaultAt tail e ∧
          message = (e.diagnostic Command.grep.name).text l := by
  have haccepted (sp : SearchSpelling) (h : sp.spelled = args) :
      requestOf l args = .ok sp.request := by
    rw [requestOf, ← h, sp.parseSearch_spelled]
    rfl
  have hrejected (groups : List OptionGroup) (tail : List Text) (e : SearchFault)
      (h : args = groups.flatMap OptionGroup.spelled ++ tail) (hfault : FaultAt tail e) :
      requestOf l args = .error ((e.diagnostic Command.grep.name).text l) := by
    rw [requestOf, h, parseSearch_of_faultAt hfault]
    rfl
  refine ⟨⟨?_, ?_⟩, haccepted, fun message => ⟨fun h => ?_, ?_⟩⟩
  · rintro ⟨r, hr⟩
    rcases isAccountedFor args with ⟨sp, hsp⟩ | ⟨groups, tail, e, h, hfault⟩
    · exact ⟨sp, hsp, fun other hother => SearchSpelling.eq_of_spelled_eq (hother.trans hsp.symm)⟩
    · rw [hrejected groups tail e h hfault] at hr
      cases hr
  · rintro ⟨sp, hsp, -⟩
    exact ⟨sp.request, haccepted sp hsp⟩
  · rcases isAccountedFor args with ⟨sp, hsp⟩ | ⟨groups, tail, e, hargs, hfault⟩
    · rw [haccepted sp hsp] at h
      cases h
    · rw [hrejected groups tail e hargs hfault] at h
      exact ⟨groups, tail, e, hargs, hfault, (Except.error.inj h).symm⟩
  · rintro ⟨groups, tail, e, hargs, hfault, rfl⟩
    exact hrejected groups tail e hargs hfault

/-- Three groups of options in front of `--`: two of them have a count, once with zeros in front and once
as the next argument, and the pattern and the file look like options. In the other list the first of
two faults is reported. -/
theorem requestOf_grammar_of_clusters :
    let args := ["-iA007", "-wA", "2", "-i", "--", "-A", "-w"].map String.toList
    let faulty := ["-iA007", "-wx", "-A", "+2"].map String.toList
    (∃! sp : SearchSpelling, sp.spelled = args) ∧
      requestOf .en args = .ok ⟨⟨⟨true, true⟩, 2⟩, "-A".toList, ["-w".toList]⟩ ∧
      requestOf .en faulty = .error "grep: -x: Invalid option".toList := by
  intro args faulty
  have hseven : IsCount "007".toList := (parseCount_eq_some_iff (n := 7)).1 rfl |>.1
  have htwo : IsCount "2".toList := (parseCount_eq_some_iff (n := 2)).1 rfl |>.1
  let sp : SearchSpelling :=
    ⟨[.glued [.ignoreCase] ⟨_, hseven⟩, .apart [.wholeWords] ⟨_, htwo⟩, .plain .ignoreCase []], true,
      "-A".toList, ["-w".toList], by simp⟩
  obtain ⟨hunique, haccepted, -⟩ := requestOf_grammar .en args
  have hrequest : requestOf .en args = .ok sp.request := haccepted sp rfl
  refine ⟨hunique.1 ⟨_, hrequest⟩, hrequest, ?_⟩
  refine ((requestOf_grammar .en faulty).2.2 _).2
    ⟨[.glued [.ignoreCase] ⟨_, hseven⟩], ["-wx", "-A", "+2"].map String.toList, .unknownOption 'x', rfl,
      ?_, by decide +kernel⟩
  exact .unknownOption [.wholeWords] 'x' [] _ (by decide) (by decide) (by decide) (by decide)

end PipeShell
