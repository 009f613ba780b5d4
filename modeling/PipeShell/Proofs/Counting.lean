import Mathlib.Data.List.SplitBy
import PipeShell.Proofs.Gathering
import PipeShell.Proofs.Tallying

/-! # Counting what flows through a pipeline

Lines and bytes of two contents add up when the second follows the first. Words do as well, unless a
word goes on from the one to the other: then it is counted twice in the parts and once in the whole.

* **`Bytes.words`** — the words themselves; `Bytes.length_words` counts them.
* **`Bytes.words_counts_append`** — the words of two contents, and what is too many where they meet.
* **`junctions`**, **`Bytes.counts_flatten`** — the same for any number of contents.
* **`Session.runPipeline_count_files`** — files that are counted one by one or printed into one count.
* **`Session.runPipeline_count_echo`** — arguments that are printed and counted. -/

namespace PipeShell

/-! ## Words -/

/-- A run goes on with an element that is related to the first of the others. -/
theorem splitBy_cons_cons {α : Type} {r : α → α → Bool} {x y : α} (h : r x y = true) (ys : List α) :
    ∃ run runs, (y :: ys).splitBy r = (y :: run) :: runs ∧
      (x :: y :: ys).splitBy r = (x :: y :: run) :: runs := by
  obtain ⟨hflat, hne, hchains, hcuts⟩ := List.splitBy_eq_iff (m := y :: ys) (r := r) |>.1 rfl
  generalize (y :: ys).splitBy r = cut at *
  -- the runs are determined by their properties, and these are kept when `x` joins the first run
  match cut with
  | [] => cases hflat
  | [] :: runs => exact absurd List.mem_cons_self hne
  | (z :: run) :: runs =>
    obtain ⟨rfl, rfl⟩ := List.cons.inj hflat
    refine ⟨run, runs, rfl, List.splitBy_eq_iff.2 ⟨rfl, by simpa using hne, ?_, ?_⟩⟩
    · obtain ⟨hfirst, hrest⟩ := List.forall_mem_cons.1 hchains
      exact List.forall_mem_cons.2 ⟨List.isChain_cons_cons.2 ⟨h, hfirst⟩, hrest⟩
    · cases runs with
      | nil => exact List.isChain_singleton _
      | cons next runs =>
        obtain ⟨⟨_, hnext, hcut⟩, hrest⟩ := List.isChain_cons_cons.1 hcuts
        exact List.isChain_cons_cons.2 ⟨⟨List.cons_ne_nil _ _, hnext, by simpa using hcut⟩, hrest⟩

/-- Are two bytes both separators, or neither of them? -/
def sameKind (a b : UInt8) : Bool := isWordBreak a == isWordBreak b

/-- **The words of some bytes**: the longest stretches that hold no separator. The bytes are cut where a
separator and another byte meet, and the stretches without separators are kept. -/
def Bytes.words (bs : Bytes) : List Bytes :=
  (bs.splitBy sameKind).filter fun run => run.all (!isWordBreak ·)

/-- The first field is empty exactly if a separator stands at the start. -/
theorem exists_fields_cons {α : Type} (p : α → Bool) (x : α) (xs : List α) :
    ∃ f fs, fields p (x :: xs) = f :: fs ∧ f.isEmpty = p x := by
  by_cases hx : p x = true
  · exact ⟨[], fields p xs, by rw [fields, if_pos hx], hx.symm⟩
  · rw [fields, if_neg hx]
    cases fields p xs with
    | nil => exact ⟨[x], [], rfl, by simp [hx]⟩
    | cons f fs => exact ⟨x :: f, fs, rfl, by simp [hx]⟩

/-- **A word is counted where it ends**: at a byte of it that a separator or nothing follows. -/
theorem Bytes.words_counts_cons (b : UInt8) (bs : Bytes) :
    (counts (b :: bs)).words
      = (if !isWordBreak b && bs.head?.all isWordBreak then 1 else 0) + (counts bs).words := by
  simp only [counts, fields]
  cases hb : isWordBreak b with
  | true => simp
  | false =>
    cases bs with
    | nil => simp
    | cons c cs =>
      obtain ⟨f, fs, hfields, hempty⟩ := exists_fields_cons isWordBreak c cs
      cases hc : isWordBreak c <;> simp [hfields, hempty, hc, Nat.add_comm]

/-- **The words are as many as are counted**, by induction on the bytes: both numbers grow where a word
ends. -/
theorem Bytes.length_words (bs : Bytes) : bs.words.length = bs.counts.words := by
  induction bs with
  | nil => rfl
  | cons b bs ih =>
    rw [words_counts_cons, ← ih]
    cases bs with
    | nil => cases hb : isWordBreak b <;> simp [words, List.splitBy, List.splitBy.loop, hb]
    | cons c cs =>
      by_cases h : sameKind b c = true
      · -- `b` joins the run of `c`, so no word ends between them
        obtain ⟨run, runs, hruns, hmore⟩ := splitBy_cons_cons h cs
        have hbc : isWordBreak b = isWordBreak c := by simpa [sameKind] using h
        rw [words, words, hruns, hmore, List.filter_cons, List.filter_cons]
        cases hc : isWordBreak c <;> simp [hbc, hc, apply_ite List.length]
      · -- one of the two is a separator: `b` is a run, which is a word if `c` is the separator
        have hcut := List.splitBy_append_cons (r := sameKind) (l := [b]) (a := c) cs (by simpa using h)
        have hbc : isWordBreak b = !isWordBreak c := by
          cases hb : isWordBreak b <;> cases hc : isWordBreak c <;> simp_all [sameKind]
        rw [List.singleton_append] at hcut
        rw [words, words, hcut]
        cases hc : isWordBreak c <;>
          simp [hbc, hc, List.splitBy, List.splitBy.loop, Nat.add_comm]

/-- Between white space there are two words, and none without a byte. -/
example : Bytes.words (Text.utf8 " ab\t\nc ".toList) = [[0x61, 0x62], [0x63]] := by decide +kernel

/-! ## Contents one after the other -/

/-- **Does a word go on** from the end of some bytes to the beginning of others? -/
def wordGoesOn (as bs : Bytes) : Bool :=
  as.getLast?.any (!isWordBreak ·) && bs.head?.any (!isWordBreak ·)

/-- **The words of two contents one after the other.** A word that goes on is one word. -/
theorem Bytes.words_counts_append (as bs : Bytes) :
    (counts (as ++ bs)).words + (if wordGoesOn as bs then 1 else 0)
      = (counts as).words + (counts bs).words := by
  induction as with
  | nil => simp [wordGoesOn, counts]
  | cons a as ih =>
    rw [List.cons_append, words_counts_cons, words_counts_cons]
    cases as with
    | nil =>
      cases ha : isWordBreak a with
      | true => simp [wordGoesOn, ha, counts]
      | false =>
        cases bs with
        | nil => simp [wordGoesOn, counts]
        | cons b bs => cases hb : isWordBreak b <;> simp [wordGoesOn, ha, hb, counts, Nat.add_comm]
    | cons a' as =>
      have hjoin : wordGoesOn (a :: a' :: as) bs = wordGoesOn (a' :: as) bs := by
        rw [wordGoesOn, wordGoesOn, List.getLast?_cons_cons]
      rw [hjoin, Nat.add_assoc, ih, Nat.add_assoc, List.cons_append, List.head?_cons, List.head?_cons]

/-- **The number of junctions of some contents**: of the pairs of neighbours, empty contents left out,
where a word goes on from the one to the other. -/
def junctions (contents : List Bytes) : Nat :=
  let filled := contents.filter (!·.isEmpty)
  (filled.zip filled.tail).countP fun pair => wordGoesOn pair.1 pair.2

/-- Of a content and those after it, the first meets all of what comes after it. -/
theorem junctions_cons (c : Bytes) (rest : List Bytes) :
    junctions (c :: rest) = (if wordGoesOn c rest.flatten then 1 else 0) + junctions rest := by
  cases c with
  | nil => simp [junctions, wordGoesOn]
  | cons b bs =>
    rw [junctions, junctions, List.filter_cons_of_pos rfl, List.tail_cons,
      ← List.flatten_filter_not_isEmpty (L := rest)]
    cases hfilled : rest.filter (!·.isEmpty) with
    | nil => simp [wordGoesOn]
    | cons d ds =>
      have hd : d ≠ [] := by
        have hmem : d ∈ rest.filter (!·.isEmpty) := hfilled ▸ List.mem_cons_self
        simpa using (List.mem_filter.1 hmem).2
      -- what comes after begins with the first byte of the next content that is not empty
      have hmeet : wordGoesOn (b :: bs) (d :: ds).flatten = wordGoesOn (b :: bs) d := by
        rw [wordGoesOn, wordGoesOn, List.flatten_cons, List.head?_append_of_ne_nil _ hd]
      rw [hmeet, List.zip_cons_cons, List.countP_cons, List.tail_cons, Nat.add_comm]

/-- **The counts of some contents one after the other** are the sums of their counts, less one word for
each junction, by induction on the contents. -/
theorem Bytes.counts_flatten (contents : List Bytes) :
    let sums := Counts.sum (contents.map counts)
    (counts contents.flatten).lines = sums.lines ∧
      (counts contents.flatten).words + junctions contents = sums.words ∧
      (counts contents.flatten).bytes = sums.bytes := by
  induction contents with
  | nil => exact ⟨rfl, rfl, rfl⟩
  | cons c rest ih =>
    obtain ⟨hlines, hwords, hbytes⟩ := ih
    have hmeet := words_counts_append c rest.flatten
    rw [List.map_cons, List.flatten_cons, Counts.sum_cons]
    refine ⟨List.count_append.trans (congrArg (_ + ·) hlines), ?_,
      List.length_append.trans (congrArg (_ + ·) hbytes)⟩
    calc (counts (c ++ rest.flatten)).words + junctions (c :: rest)
        = (counts (c ++ rest.flatten)).words + (if wordGoesOn c rest.flatten then 1 else 0)
            + junctions rest := by rw [junctions_cons, Nat.add_assoc]
      _ = (counts c).words + ((counts rest.flatten).words + junctions rest) := by
          rw [hmeet, Nat.add_assoc]
      _ = (counts c).words + (Counts.sum (rest.map counts)).words := by rw [hwords]

/-! ## Files that are counted -/

section Stages

variable {s : Session} (hs : s.commands = Command.all)

include hs

/-- A stage that counts its input prints one row. -/
theorem Session.stageOutput_count (disk : Disk) (data : Bytes) :
    s.stageOutput disk ⟨Command.wc.name, []⟩ data = data.counts.row none := by
  rw [stageOutput_of_command (command?_name hs .wc)]
  exact List.append_nil _

/-- It reports nothing and succeeds. -/
theorem Session.reports_count (disk : Disk) :
    s.stageReports disk ⟨Command.wc.name, []⟩ = [] ∧
      s.stageCode disk ⟨Command.wc.name, []⟩ = .success := by
  rw [stageReports, stageCode, command?_name hs .wc]
  exact ⟨rfl, rfl⟩

/-- **What is printed by one stage and counted by the next**, on outputs that do not fail. -/
theorem Session.runPipeline_count (disk : Disk) (stage : Stage) (o e : Bytes) :
    s.runPipeline disk (.holding o e) [stage, ⟨Command.wc.name, []⟩]
      = (.holding (o ++ (s.stageOutput disk stage []).counts.row none)
          (e ++ reportOf s.locale (s.stageReports disk stage)), .ok .success) := by
  have hcode : s.lastCode disk [stage, ⟨Command.wc.name, []⟩] = .success := (reports_count hs disk).2
  rw [runPipeline_holding, hcode, List.flatMap_cons, List.flatMap_singleton, (reports_count hs disk).1,
    List.append_nil, flow_cons, flow_cons, flow_nil, stageOutput_count hs]

/-- What a stage prints that counts files. -/
theorem Session.stageOutput_count_files {names : List Text} (h : names ≠ []) (disk : Disk) :
    let here := s.surroundings disk
    s.stageOutput disk ⟨Command.wc.name, names⟩ []
      = ((here.readable names).flatMap fun f => f.2.counts.row (some f.1)) ++
          (totalRow here names).flatMap Write.output := by
  intro here
  rw [stageOutput_of_command (command?_name hs .wc), Command.transcript_wc h, Surroundings.overFiles,
    Transcript.finish, List.flatMap_append, Surroundings.flatMap_showFile]

end Stages

/-- **Files counted one by one and in one piece.** For any files, at least one, whether they can be
read or not, on outputs that do not fail: `wc` prints the counts of each that can be read and, if these
are at least two, their sums; and when the files are printed by `cat` and counted together, the lines and
the bytes are the sums, and the words are the sum of the words less one for each junction. -/
theorem Session.runPipeline_count_files {s : Session} (hs : s.commands = Command.all) (disk : Disk)
    {names : List Text} (hnames : names ≠ []) (o e : Bytes) :
    let here := s.surroundings disk
    let readable := here.readable names
    let contents := readable.map Prod.snd
    let sums := Counts.sum (contents.map Bytes.counts)
    let run (stages : List Stage) := s.runPipeline disk (.holding o e) stages
    (run [⟨Command.wc.name, names⟩]).1.out.written
      = o ++ ((readable.flatMap fun f => f.2.counts.row (some f.1)) ++
          if 2 ≤ readable.length then sums.row (some s.locale.total) else []) ∧
    junctions contents ≤ sums.words ∧
    run [⟨Command.cat.name, names⟩, ⟨Command.wc.name, []⟩]
      = (.holding
          (o ++ Counts.row ⟨sums.lines, sums.words - junctions contents, sums.bytes⟩ none)
          (e ++ (here.unreadable names).flatMap fun name =>
            (Diagnostic.unreadable Command.cat.name name).line s.locale), .ok .success) := by
  intro here readable contents sums run
  obtain ⟨hlines, hwords, hbytes⟩ := Bytes.counts_flatten contents
  have hsums : Counts.sum (readable.map fun f => f.2.counts) = sums :=
    congrArg Counts.sum (List.map_map (f := Prod.snd) (g := Bytes.counts)).symm
  have hcounts : Bytes.counts contents.flatten
      = ⟨sums.lines, sums.words - junctions contents, sums.bytes⟩ := by
    rw [← hlines, ← Nat.eq_sub_of_add_eq hwords, ← hbytes]
  refine ⟨?_, hwords ▸ Nat.le_add_left _ _, ?_⟩
  · simp only [run, runPipeline_holding, flow_cons, flow_nil]
    rw [stageOutput_count_files hs hnames, flatMap_output_totalRow, hsums]
    rfl
  · simp only [run, runPipeline_count hs, stageOutput_cat hs, stageReports_cat hs, reportOf,
      List.flatMap_map]
    rw [hcounts]

/-- Two words are cut by a junction each, one of them across a file that is empty; a name that cannot be
read stands in between, and a line feed makes the last two meet without one. -/
theorem Session.runPipeline_count_files_of_junctions :
    let s : Session := { dir := "d".toList, locale := .en }
    let disk : Disk := .ofList [("d/a".toList, .ok (Text.utf8 "x y".toList)),
      ("d/b".toList, .ok []), ("d/c".toList, .ok (Text.utf8 "z\n".toList))]
    let names := ["a", "b", "-", "a", "c", "c"].map String.toList
    let run (stages : List Stage) := s.runPipeline disk (.holding [] []) stages
    s.commands = Command.all ∧ names ≠ [] ∧
      (run [⟨"wc".toList, names⟩]).1.out.written = Text.utf8 (" 0\t2\t3 a\n 0\t0\t0 b\n 0\t2\t3 a\n" ++
        " 1\t1\t2 c\n 1\t1\t2 c\n 2\t6\t10 total\n").toList ∧
      run [⟨"cat".toList, names⟩, ⟨"wc".toList, []⟩]
        = (.holding (Text.utf8 " 2\t4\t10\n".toList)
            (Text.utf8 "cat: -: No such file or directory\n".toList), .ok .success) := by
  intro s disk names run
  have hs : s.commands = Command.all := rfl
  have hnames : names ≠ [] := by decide
  obtain ⟨hwc, -, hcat⟩ := runPipeline_count_files hs disk hnames [] []
  exact ⟨hs, hnames, hwc.trans (by decide +kernel), hcat.trans (by decide +kernel)⟩

/-! ## Arguments that are counted -/

/-- **A separator keeps the words on its sides apart.** -/
theorem Bytes.counts_append_cons {b : UInt8} (h : isWordBreak b = true) (as bs : Bytes) :
    counts (as ++ b :: bs)
      = ⟨as.count lineFeed + ([b].count lineFeed + (counts bs).lines),
          as.words.length + (counts bs).words, as.length + (1 + (counts bs).bytes)⟩ := by
  have hapart : wordGoesOn as (b :: bs) = false := by simp [wordGoesOn, h]
  have hwords := words_counts_append as (b :: bs)
  rw [hapart, words_counts_cons, h, ← length_words as] at hwords
  have hlines : (as ++ b :: bs).count lineFeed
      = as.count lineFeed + ([b].count lineFeed + bs.count lineFeed) := by
    rw [List.count_append, ← List.singleton_append, List.count_append]
  have hbytes : (as ++ b :: bs).length = as.length + (1 + bs.length) := by
    rw [List.length_append, List.length_cons, Nat.add_comm 1]
  rw [counts] at hwords ⊢
  simp only [hlines, hbytes, counts] at hwords ⊢
  simpa using hwords

/-- A text has as many line feeds as its encoding. -/
theorem Text.count_utf8 (t : Text) : t.utf8.count lineFeed = t.count '\n' := by
  induction t with
  | nil => rfl
  | cons c t ih =>
    rw [utf8_cons, List.count_append, ih]
    by_cases hc : c = '\n'
    · subst hc
      rw [List.count_cons_self, Nat.add_comm]
      rfl
    · rw [List.count_eq_zero.2 (mt lineFeed_mem_utf8EncodeChar_iff.1 hc), Nat.zero_add,
        List.count_cons_of_ne hc]

/-- The counts of arguments that are joined by spaces and end with a line feed, by induction on the
arguments: a separator follows each of them. -/
theorem Text.counts_joined (arg : Text) (args : List Text) :
    Bytes.counts (Text.utf8 ([' '].intercalate (arg :: args)) ++ [lineFeed])
      = ⟨1 + ((arg :: args).map (·.count '\n')).sum,
          ((arg :: args).map fun arg => arg.utf8.words.length).sum,
          ((arg :: args).map fun arg => arg.utf8.length).sum + (arg :: args).length⟩ := by
  induction args generalizing arg with
  | nil =>
    have hlast := Bytes.counts_append_cons (b := lineFeed) rfl arg.utf8 []
    rw [List.intercalate_singleton, hlast, count_utf8]
    simp [Bytes.counts, Nat.add_comm]
  | cons next args ih =>
    have hjoin : Text.utf8 ([' '].intercalate (arg :: next :: args)) ++ [lineFeed]
        = arg.utf8 ++ 0x20 :: (Text.utf8 ([' '].intercalate (next :: args)) ++ [lineFeed]) := by
      rw [List.intercalate_cons_cons, utf8_append, utf8_append, List.append_assoc, List.append_assoc]
      rfl
    have hspace : [(0x20 : UInt8)].count lineFeed = 0 := rfl
    rw [hjoin, Bytes.counts_append_cons rfl, ih, count_utf8, hspace]
    simp only [List.map_cons, List.sum_cons, List.length_cons, Counts.mk.injEq]
    exact ⟨by omega, trivial, by omega⟩

/-- The counts of what `echo` prints. Without arguments that is an empty line. -/
theorem Text.counts_echo (args : List Text) :
    Bytes.counts (Text.utf8 ([' '].intercalate args) ++ [lineFeed])
      = ⟨1 + (args.map (·.count '\n')).sum, (args.map fun arg => arg.utf8.words.length).sum,
          (args.map fun arg => arg.utf8.length).sum + max args.length 1⟩ := by
  cases args with
  | nil => rfl
  | cons arg args =>
    have hmax : max (arg :: args).length 1 = (arg :: args).length :=
      Nat.max_eq_left (Nat.succ_pos args.length)
    rw [counts_joined, hmax]

/-- A row without a label, spelled out. -/
theorem Counts.row_none (lines words bytes : Nat) :
    Counts.row ⟨lines, words, bytes⟩ none = Text.utf8 s!" {lines}\t{words}\t{bytes}\n".toList := by
  have hfeed : [lineFeed] = Text.utf8 "\n".toList := rfl
  simp only [row, hfeed, ← Text.utf8_append]
  refine congrArg Text.utf8 ?_
  simp [decimal, toString, Nat.repr]

/-- **Arguments that are printed and counted.** For any arguments, none included, whatever characters
they are made of: when `echo` prints them and `wc` counts what it prints, on outputs that do not fail,
there is one line and one more for each line feed in them, each has the words that its bytes have, and
there are their bytes and one separator behind each of them, or the one of an empty line. Nothing is
reported. -/
theorem Session.runPipeline_count_echo {s : Session} (hs : s.commands = Command.all) (disk : Disk)
    (args : List Text) (o e : Bytes) :
    let lines := 1 + (args.map (·.count '\n')).sum
    let words := (args.map fun arg => arg.utf8.words.length).sum
    let bytes := (args.map fun arg => arg.utf8.length).sum + max args.length 1
    s.runPipeline disk (.holding o e) [⟨Command.echo.name, args⟩, ⟨Command.wc.name, []⟩]
      = (.holding (o ++ Text.utf8 s!" {lines}\t{words}\t{bytes}\n".toList) e, .ok .success) := by
  intro lines words bytes
  have hprinted : s.stageOutput disk ⟨Command.echo.name, args⟩ []
      = Text.utf8 ([' '].intercalate args) ++ [lineFeed] := by
    rw [stageOutput_of_command (command?_name hs .echo)]
    exact List.append_nil _
  have hsilent : s.stageReports disk ⟨Command.echo.name, args⟩ = [] := by
    rw [stageReports, command?_name hs .echo]
    rfl
  rw [runPipeline_count hs, hprinted, Text.counts_echo, Counts.row_none, hsilent, reportOf_nil,
    List.append_nil]

/-- An empty argument, one of separators, one with a line feed and a space that only separates words of
the language: two arguments have words, one of them two. -/
theorem Session.runPipeline_count_echo_of_separators :
    let s : Session := { dir := [], locale := .en }
    let args := ["", " \t", "a\nb", "\u00e9\u2003\u00e9"].map String.toList
    s.commands = Command.all ∧
      s.runPipeline (.ofList []) (.holding [] [])
          [⟨Command.echo.name, args⟩, ⟨Command.wc.name, []⟩]
        = (.holding (Text.utf8 " 2\t3\t16\n".toList) [], .ok .success) := by
  intro s args
  have hs : s.commands = Command.all := rfl
  have hcount := runPipeline_count_echo hs (.ofList []) args [] []
  exact ⟨hs, hcount.trans (by decide +kernel)⟩

end PipeShell
