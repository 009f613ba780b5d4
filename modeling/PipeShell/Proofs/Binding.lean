import PipeShell.Proofs.Assigning
import PipeShell.Proofs.Expanding
import PipeShell.Proofs.Quoting

/-! # What is bound stays bound

A name keeps its value until a line assigns to it again, whatever the lines in between do, and a
reference to the name stands for the value as it is. So a text in quotes is read back as it was
written.

* **`get_storeAfter_of_last`** — the last of the assignments to a name gives its value.
* **`acceptedTokens`** — the tokens of a line that take effect.
* **`Session.foldl_afterLine_eq`** — lines change nothing but the bindings, and these as such tokens say.
* **`Assigns line name`** — a line assigns to a name; `Session.get_foldl_afterLine` is what the lines
  keep that do not.
* **`Session.submit_of_lex_echo`**, **`Session.submit_echo`** — printing words, and printing one.
* **`Session.submit_echo_assigned`** — a value in quotes is read back after any such lines. -/

namespace PipeShell

/-! ## What tokens leave of the bindings -/

/-- Tokens keep the value of a name that none of them assigns to. -/
theorem get_storeAfter {name : Text} {ts : List Token} (h : ∀ value : Word, .assign name value ∉ ts)
    (σ : Store) : (storeAfter σ ts).get name = σ.get name := by
  induction ts generalizing σ with
  | nil => rfl
  | cons t ts ih =>
    have hts : ∀ value : Word, .assign name value ∉ ts := fun value hmem =>
      h value (List.mem_cons_of_mem t hmem)
    rw [storeAfter_cons, ih hts]
    cases t with
    | pipe => rfl
    | item i =>
      cases i with
      | word w => rfl
      | assign other value =>
        refine Store.get_bind_of_ne σ (value.value σ) ?_
        rintro rfl
        exact h value List.mem_cons_self

/-- **A name has the value of the last assignment to it**, read in the store after the tokens before that
assignment. -/
theorem get_storeAfter_of_last {name : Text} {rest : List Token}
    (h : ∀ other : Word, .assign name other ∉ rest) (σ : Store) (before : List Token) (value : Word) :
    (storeAfter σ (before ++ .assign name value :: rest)).get name
      = value.value (storeAfter σ before) := by
  rw [storeAfter_append, storeAfter_cons, get_storeAfter h, Token.install, Store.get_bind_self]

/-- The names bound after some tokens are those bound before and those that the tokens assign to. -/
theorem isBound_storeAfter {σ : Store} {name : Text} {ts : List Token} :
    (storeAfter σ ts).isBound name = true ↔
      σ.isBound name = true ∨ ∃ value, .assign name value ∈ ts := by
  induction ts generalizing σ with
  | nil => simp
  | cons t ts ih =>
    rw [storeAfter_cons, ih]
    cases t with
    | pipe => simp [Token.install]
    | item i =>
      cases i with
      | word w => simp [Token.install]
      | assign other value =>
        have hhead : (∃ v, Token.assign name v ∈ Token.assign other value :: ts)
            ↔ other = name ∨ ∃ v, Token.assign name v ∈ ts := by
          simp [exists_or, eq_comm]
        rw [hhead, Token.install, Store.isBound_bind, Bool.or_eq_true, decide_eq_true_eq]
        tauto

/-! ## Tokens that take effect -/

instance (tokens : List Token) : Decidable (LacksCommand tokens) :=
  decidable_of_iff _ isWellFormed_eq_false_iff

/-- **The tokens of a line that take effect**: all of them, or none if the line is rejected. -/
def acceptedTokens (line : Text) : List Token :=
  match lex line with
  | .ok tokens => if LacksCommand tokens then [] else tokens
  | .error _ => []

/-- The tokens that take effect are tokens of the line. -/
theorem exists_lex_of_mem_acceptedTokens {line : Text} {t : Token} (h : t ∈ acceptedTokens line) :
    ∃ ts, lex line = .ok ts ∧ t ∈ ts := by
  unfold acceptedTokens at h
  split at h
  next ts hlex =>
    split at h
    · simp at h
    · exact ⟨ts, hlex, h⟩
  next => simp at h

/-- **A line changes nothing but the bindings**, and these as its tokens say if it is not rejected: the
step. -/
theorem Session.afterLine_eq (s : Session) (line : Text) :
    s.afterLine line = { s with store := storeAfter s.store (acceptedTokens line) } := by
  rw [afterLine, acceptedTokens]
  cases hlex : lex line with
  | error reason => rw [planLine, hlex]; rfl
  | ok tokens =>
    rw [planLine_of_lex hlex]
    by_cases hlacks : LacksCommand tokens
    · rw [plan_eq_error_iff.2 ⟨rfl, hlacks⟩]
      simp [hlacks]
    · have hwell : isWellFormed (groups tokens) = true := by
        simpa using mt isWellFormed_eq_false_iff.1 hlacks
      rw [plan, if_pos hwell]
      simp only [store_readGroups_groups, if_neg hlacks]

/-- **Lines change nothing but the bindings**: the run. -/
theorem Session.foldl_afterLine_eq (s : Session) (lines : List Text) :
    lines.foldl afterLine s
      = { s with store := storeAfter s.store (lines.flatMap acceptedTokens) } := by
  induction lines generalizing s with
  | nil => rfl
  | cons line lines ih =>
    rw [List.foldl_cons, ih, afterLine_eq, List.flatMap_cons, storeAfter_append]

/-! ## What lines keep -/

/-- **Does the line assign to the name?** It does not matter whether it is then accepted. -/
def Assigns (line name : Text) : Prop :=
  ∃ (ts : List Token) (value : Word), lex line = .ok ts ∧ .assign name value ∈ ts

/-- **Lines keep the value of a name that none of them assigns to.** -/
theorem Session.get_foldl_afterLine {name : Text} {lines : List Text}
    (h : ∀ line ∈ lines, ¬ Assigns line name) (s : Session) :
    (lines.foldl afterLine s).store.get name = s.store.get name := by
  rw [foldl_afterLine_eq]
  refine get_storeAfter (fun value hmem => ?_) s.store
  obtain ⟨line, hline, hmem⟩ := List.mem_flatMap.1 hmem
  obtain ⟨ts, hlex, hmem⟩ := exists_lex_of_mem_acceptedTokens hmem
  exact h line hline ⟨ts, value, hlex, hmem⟩

/-! ## Reading a value back -/

/-- A line that calls only `echo` prints its arguments and nothing else. -/
theorem Session.reply_of_echo {s : Session} (hs : s.commands = Command.all) {line : Text}
    {args : List Text} {τ : Store} (h : planLine s.store line = .ok ⟨[⟨Command.echo.name, args⟩], τ⟩)
    (disk : Disk) :
    s.reply disk line
      = ({ output := Text.utf8 ([' '].intercalate args) ++ [lineFeed] }, { s with store := τ }) := by
  have hfind : s.command? Command.echo.name = some .echo := by
    rw [command?, hs]
    rfl
  have hprint : s.transcript disk ⟨Command.echo.name, args⟩ {}
      = printLine ([' '].intercalate args) := by
    rw [transcript, hfind]
    rfl
  have hstage : s.pipelineReply disk [⟨Command.echo.name, args⟩]
      = { output := Text.utf8 ([' '].intercalate args) ++ [lineFeed] } := by
    change s.stageReply disk {} ⟨Command.echo.name, args⟩ = _
    rw [stageReply, hprint]
    simp [printLine, Transcript.finish, Transcript.reply, Write.output, Write.diagnostic?]
  rw [reply, h]
  simp only [hstage]

/-- The name of `echo` as a word. -/
def echoWord : Word := [.bare Command.echo.name]

/-- The name of `echo` can be read. -/
theorem isNormal_echoWord : echoWord.IsNormal := by
  refine ⟨by simp [echoWord], ?_, .singleton _⟩
  intro p hp
  rw [List.mem_singleton.1 hp]
  exact ⟨by simp [Command.name], List.all_eq_true.1 (by decide)⟩

/-- The name of `echo` stands for itself. -/
theorem value_echoWord (σ : Store) : echoWord.value σ = Command.echo.name := by
  have hplain : '$' ∉ Command.echo.name := by decide +kernel
  rw [echoWord, Word.value_cons, Word.value_nil, List.append_nil, Part.value,
    expand_of_not_mem σ hplain]

/-- **A line of `echo` and words** calls it with the values of the words. -/
theorem planLine_of_lex_echo {line : Text} {ws : List Word}
    (h : lex line = .ok ((echoWord :: ws).map .word)) (σ : Store) :
    planLine σ line = .ok ⟨[⟨Command.echo.name, ws.map (Word.value σ)⟩], σ⟩ := by
  have hitems : (echoWord :: ws).map Token.word = ((echoWord :: ws).map Item.word).map .item := by
    rw [List.map_map]
    rfl
  -- a line without a pipe operator is well formed whatever its items are
  have hwell : ∀ g : List Item, isWellFormed [g] = true := fun _ => rfl
  rw [planLine_of_lex h, hitems, plan, groups_items, if_pos (hwell _), readGroups, readItems_words,
    List.map_cons, value_echoWord]
  rfl

/-- **What a line of `echo` and words prints**: the values of the words, joined by spaces. -/
theorem Session.submit_of_lex_echo {s : Session} (hs : s.commands = Command.all) {line : Text}
    {ws : List Word} (h : lex line = .ok ((echoWord :: ws).map .word)) (disk : Disk) (o e : Bytes) :
    s.submit disk (.holding o e) line
      = ⟨s, .holding (o ++ (Text.utf8 ([' '].intercalate (ws.map (Word.value s.store)))
          ++ [lineFeed])) e, .ok .success⟩ := by
  have hreply := reply_of_echo hs (planLine_of_lex_echo h s.store) disk
  rw [submit_holding, ← reply_snd s disk, hreply]
  simp

/-- A line of `echo` and one word that can be read. -/
theorem lex_echo {w : Word} (hw : w.IsNormal) :
    lex ("echo ".toList ++ w.printed) = .ok [.word echoWord, .word w] := by
  have hnormal : NormalTokens [.word echoWord, .word w] := by
    intro g hg
    rw [List.mem_singleton.1 hg, normalGroup_word]
    refine ⟨isNormal_echoWord, by decide +kernel, ?_⟩
    intro i hi
    exact ⟨w, hw, List.mem_singleton.1 hi⟩
  have hline : lineOf [.word echoWord, .word w] = "echo ".toList ++ w.printed := by
    rw [lineOf_cons, List.flatMap_cons, List.flatMap_nil, List.append_nil]
    rfl
  rw [← hline]
  exact lex_lineOf hnormal

/-- A reference to a name stands for its value. -/
theorem expand_name (σ : Store) {name : Text} (h : isName name = true) :
    expand σ ('$' :: name) = σ.get name := by
  rw [(Decomposition.ofName h).expand_eq σ]
  exact List.append_nil _

/-- The two words that refer to a name and hold nothing else: one outside quotes, one inside. -/
def referencesTo (name : Text) : List Word := [[.bare ('$' :: name)], [.quoted .double ('$' :: name)]]

/-- A reference to a name can be read, and stands for the value of the name. -/
theorem isNormal_and_value_of_mem_referencesTo {name : Text} (h : isName name = true) {w : Word}
    (hw : w ∈ referencesTo name) : w.IsNormal ∧ ∀ σ : Store, w.value σ = σ.get name := by
  have hchar : ∀ c ∈ '$' :: name, isOrdinary c = true := by
    refine List.forall_mem_cons.2 ⟨by decide, fun c hc => ?_⟩
    exact isOrdinary_of_isNameChar (isNameChar_of_mem h hc)
  have hparts : ∀ p : Part, p.IsNormal → (∀ σ : Store, p.value σ = expand σ ('$' :: name)) →
      Word.IsNormal [p] ∧ ∀ σ : Store, Word.value σ [p] = σ.get name := by
    intro p hp hvalue
    refine ⟨⟨by simp, by simpa using hp, .singleton p⟩, fun σ => ?_⟩
    rw [Word.value_cons, Word.value_nil, List.append_nil, hvalue, expand_name σ h]
  rcases List.mem_cons.1 hw with rfl | hw
  · exact hparts _ ⟨by simp, hchar⟩ fun σ => rfl
  · rw [List.mem_singleton.1 hw]
    refine hparts _ (fun hmark => ?_) fun σ => rfl
    exact absurd (hchar _ hmark) (by decide)

/-- The line that assigns a text in quotes. -/
theorem lex_assign_quoted {name : Text} (h : isName name = true) (v : Text) :
    lex (name ++ '=' :: quoted v) = .ok [.assign name (quotedWord v)] := by
  have hnormal : NormalTokens [.assign name (quotedWord v)] := by
    intro g hg
    rw [List.mem_singleton.1 hg, normalGroup_assign]
    exact ⟨h, isNormal_quotedWord v, normalGroup_nil⟩
  have hline : lineOf [.assign name (quotedWord v)] = name ++ '=' :: quoted v := by
    rw [← printed_quotedWord]
    exact List.intercalate_singleton
  rw [← hline]
  exact lex_lineOf hnormal

/-- The line that assigns a text in quotes binds the text itself. -/
theorem Session.afterLine_assign_quoted {name : Text} (h : isName name = true) (v : Text)
    (s : Session) :
    s.afterLine (name ++ '=' :: quoted v) = { s with store := s.store.bind name v } := by
  have hassign : ∀ t ∈ ([.assign name (quotedWord v)] : List Token), t.IsAssignment :=
    List.forall_mem_singleton.2 ⟨name, quotedWord v, rfl⟩
  have hbind : storeAfter s.store [.assign name (quotedWord v)] = s.store.bind name v :=
    congrArg (s.store.bind name) (value_quotedWord s.store v)
  rw [afterLine, planLine_assignments (lex_assign_quoted h v) hassign, hbind]

/-- Printing a word that stands for a text prints just the text. -/
theorem Session.submit_echo {s : Session} (hs : s.commands = Command.all) {w : Word}
    (hw : w.IsNormal) {v : Text} (hv : w.value s.store = v) (disk : Disk) (o e : Bytes) :
    s.submit disk (.holding o e) ("echo ".toList ++ w.printed)
      = ⟨s, .holding (o ++ (v.utf8 ++ [lineFeed])) e, .ok .success⟩ := by
  have hlex : lex ("echo ".toList ++ w.printed) = .ok ([echoWord, w].map .word) := lex_echo hw
  rw [submit_of_lex_echo hs hlex, List.map_singleton, List.intercalate_singleton, hv]

/-- **A value in quotes is read back as it was written.** Whatever the session is, once a name has been
assigned a text in quotes, and after any lines none of which assigns to the name, a reference to it,
outside quotes or inside, prints the text and a line feed and nothing else: the text is not split into
words, not expanded and not trimmed. -/
theorem Session.submit_echo_assigned {s : Session} (hs : s.commands = Command.all) {name : Text}
    (hname : isName name = true) (v : Text) {lines : List Text}
    (hlines : ∀ line ∈ lines, ¬ Assigns line name) (disk : Disk) (o e : Bytes) :
    let before := s.submitAll disk (.holding o e) ((name ++ '=' :: quoted v) :: lines)
    before.result = .ok () ∧
      ∀ line ∈ ["echo $".toList ++ name, "echo \"$".toList ++ name ++ ['"']], ∀ o' e' : Bytes,
        before.session.submit disk (.holding o' e') line
          = ⟨before.session, .holding (o' ++ (v.utf8 ++ [lineFeed])) e', .ok .success⟩ := by
  intro before
  obtain ⟨o', e', hrun⟩ := s.submitAll_holding disk ((name ++ '=' :: quoted v) :: lines)
  have hsession : before.session
      = lines.foldl afterLine { s with store := s.store.bind name v } := by
    rw [← afterLine_assign_quoted hname]
    exact congrArg Outcome.session (hrun o e)
  have hcommands : before.session.commands = Command.all := by
    rw [hsession, foldl_afterLine_eq]
    exact hs
  have hvalue : before.session.store.get name = v := by
    rw [hsession, get_foldl_afterLine hlines]
    exact Store.get_bind_self s.store name v
  have hecho : ∀ w ∈ referencesTo name, ∀ o' e' : Bytes,
      before.session.submit disk (.holding o' e') ("echo ".toList ++ w.printed)
        = ⟨before.session, .holding (o' ++ (v.utf8 ++ [lineFeed])) e', .ok .success⟩ := by
    intro w hw
    obtain ⟨hnormal, hword⟩ := isNormal_and_value_of_mem_referencesTo hname hw
    exact submit_echo hcommands hnormal ((hword _).trans hvalue) disk
  refine ⟨congrArg Outcome.result (hrun o e), fun line hline => ?_⟩
  rcases List.mem_cons.1 hline with rfl | hline
  · have hbare := hecho _ List.mem_cons_self
    rwa [Word.printed, List.flatMap_singleton] at hbare
  · rw [List.mem_singleton.1 hline]
    have hquoted := hecho _ (List.mem_cons_of_mem _ List.mem_cons_self)
    rwa [Word.printed, List.flatMap_singleton] at hquoted

/-- The text has both quotation marks, a reference and a pipe operator in it. Of the lines in between,
one uses the name to bind another and calls a command that does not exist, and one is rejected. -/
theorem Session.submit_echo_assigned_of_special_text :
    let s : Session := { dir := [], locale := .en }
    let disk : Disk := fun _ => .error .notFound
    let v : Text := " a'b\"|$y ".toList
    let lines := ["y=$x nope".toList, "x=1 echo 'x".toList]
    let before := s.submitAll disk (.holding [] []) ((['x'] ++ '=' :: quoted v) :: lines)
    s.commands = Command.all ∧ isName ['x'] = true ∧ (∀ line ∈ lines, ¬ Assigns line ['x']) ∧
      ∀ line ∈ ["echo $x".toList, "echo \"$x\"".toList],
        before.session.submit disk (.holding [] []) line
          = ⟨before.session, .holding (v.utf8 ++ [lineFeed]) [], .ok .success⟩ := by
  intro s disk v lines before
  have hkeep : ∀ line ∈ lines, ¬ Assigns line ['x'] := by
    rintro line hline ⟨ts, value, hlex, hmem⟩
    rcases List.mem_cons.1 hline with rfl | hline
    · have hread : lex "y=$x nope".toList
          = .ok [.assign ['y'] [.bare "$x".toList], .word [.bare "nope".toList]] := rfl
      obtain rfl := Except.ok.inj (hlex.symm.trans hread)
      simp at hmem
    · have hread : lex "x=1 echo 'x".toList = .error .unclosedQuote := rfl
      rw [List.mem_singleton.1 hline, hread] at hlex
      cases hlex
  have hcommands : s.commands = Command.all := rfl
  have hname : isName ['x'] = true := rfl
  have hecho := (submit_echo_assigned hcommands hname v hkeep disk [] []).2
  exact ⟨hcommands, hname, hkeep, fun line hline => hecho line hline [] []⟩

end PipeShell
