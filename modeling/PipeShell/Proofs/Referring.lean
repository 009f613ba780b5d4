import PipeShell.Proofs.Calling
import PipeShell.Proofs.Confining
import PipeShell.Proofs.Dividing

/-! # A line depends on what it refers to

The names that a line refers to can be read off its tokens. Stores that agree on these names cannot be
told apart by planning the line, and what the line assigns has the same value in both afterwards.

* **`Text.RefersTo`**, **`RefersTo`** — a name stands in a text, or in the tokens of a line, as a
  reference.
* **`expand_congr`**, **`Word.value_congr`** — texts and words look up only what they refer to.
* **`Store.AgreeOn.install`**, **`Store.AgreeOn.storeAfter`** — agreement is kept by a token: the step;
  and by tokens: the run.
* **`plan_of_agreeOn`** — the plans of a line in two stores that agree on what it refers to. -/

namespace PipeShell

/-! ## References -/

/-- **Does the text refer to the name?** Somewhere in it the name stands behind a `$`, and does not go on
after that. -/
def Text.RefersTo (t name : Text) : Prop :=
  ∃ before after : Text, t = before ++ '$' :: (name ++ after) ∧ isName name = true ∧
    continuesName after = false

/-- Whatever is part of a text can stand in front of a `$`, which goes on with no name. -/
theorem FitTogether.append_dollar {fs gs : List Fragment} {t : Text} (hf : FitTogether fs)
    (hg : FitTogether gs) (hdollar : written gs = '$' :: t) : FitTogether (fs ++ gs) := by
  apply hf.append_of_not_goesOn hg
  rw [hdollar]
  exact not_referenceGoesOn_dollar (written fs) t

/-- **The references of a text are those of its decomposition.** -/
theorem Decomposition.refersTo_iff {t : Text} (d : Decomposition t) {name : Text} :
    t.RefersTo name ↔ .reference name ∈ d.fragments := by
  obtain ⟨hs, hfit, rfl⟩ := d
  constructor
  · rintro ⟨before, after, htext, hname, hafter⟩
    obtain ⟨fs, hfs, rfl⟩ := nonempty_decomposition before
    obtain ⟨gs, hgs, rfl⟩ := nonempty_decomposition after
    -- the reference is a fragment between those before it and those after it
    have hreference : FitTogether (.reference name :: gs) := ⟨⟨hname, hafter⟩, hgs⟩
    have hwhole : FitTogether (fs ++ .reference name :: gs) := hfs.append_dollar hreference rfl
    obtain rfl : hs = fs ++ .reference name :: gs := by
      apply eq_of_written_eq hfit hwhole
      rw [htext, written_append]
      rfl
    simp
  · intro hmem
    obtain ⟨fs, gs, rfl⟩ := List.append_of_mem hmem
    obtain ⟨⟨hname, hafter⟩, -⟩ := hfit.of_append
    exact ⟨written fs, written gs, written_append _ _, hname, hafter⟩

/-- A text without a `$` refers to nothing. -/
theorem Text.RefersTo.mem {t name : Text} (h : t.RefersTo name) : '$' ∈ t := by
  obtain ⟨before, after, rfl, -⟩ := h
  simp

/-- A `$` and a name refer to just that name. -/
theorem Text.refersTo_name_iff {name other : Text} (h : isName name = true) :
    RefersTo ('$' :: name) other ↔ other = name := by
  rw [(Decomposition.ofName h).refersTo_iff, Decomposition.ofName, List.mem_singleton,
    Fragment.reference.injEq]

/-- Does the part refer to the name? Nothing in single quotes does. -/
def Part.RefersTo (name : Text) : Part → Prop
  | .bare t => t.RefersTo name
  | .quoted .double t => t.RefersTo name
  | .quoted .single _ => False

/-- Does the word refer to the name? -/
def Word.RefersTo (w : Word) (name : Text) : Prop := ∃ p ∈ w, p.RefersTo name

/-- **Do the tokens refer to the name?** A word may do so, or the word that is assigned to a name. -/
def RefersTo (ts : List Token) (name : Text) : Prop :=
  ∃ i : Item, .item i ∈ ts ∧ i.content.RefersTo name

/-- **Do the tokens assign to the name?** -/
def AssignsTo (ts : List Token) (name : Text) : Prop := ∃ value : Word, .assign name value ∈ ts

/-! ## Stores that agree -/

/-- **Do two stores agree on the names** that are asked for? -/
def Store.AgreeOn (asked : Text → Prop) (σ τ : Store) : Prop :=
  ∀ name, asked name → σ.get name = τ.get name

/-- Stores that agree on more names agree on fewer. -/
theorem Store.AgreeOn.mono {asked asked' : Text → Prop} {σ τ : Store} (h : σ.AgreeOn asked τ)
    (hsub : ∀ name, asked' name → asked name) : σ.AgreeOn asked' τ :=
  fun name hname => h name (hsub name hname)

/-- **A text looks up only what it refers to.** -/
theorem expand_congr {σ τ : Store} {t : Text} (h : σ.AgreeOn t.RefersTo τ) :
    expand σ t = expand τ t := by
  obtain ⟨d⟩ := nonempty_decomposition t
  rw [d.expand_eq, d.expand_eq]
  apply List.flatMap_congr
  intro f hf
  cases f with
  | plain c => rfl
  | dollar => rfl
  | reference name => exact h name (d.refersTo_iff.2 hf)

/-- **A word looks up only what it refers to.** -/
theorem Word.value_congr {σ τ : Store} {w : Word} (h : σ.AgreeOn w.RefersTo τ) :
    w.value σ = w.value τ := by
  apply List.flatMap_congr
  intro p hp
  have hpart : σ.AgreeOn p.RefersTo τ := h.mono fun name hname => ⟨p, hp, hname⟩
  cases p with
  | bare t => exact expand_congr hpart
  | quoted q t =>
    cases q with
    | single => rfl
    | double => exact expand_congr hpart

/-- Stores that agree still agree after the same binding, now also on the name that is bound. -/
theorem Store.AgreeOn.bind {asked : Text → Prop} {σ τ : Store} (h : σ.AgreeOn asked τ)
    (name value : Text) :
    (σ.bind name value).AgreeOn (fun other => asked other ∨ other = name) (τ.bind name value) := by
  intro other hother
  by_cases hname : name = other
  · subst hname
    rw [get_bind_self, get_bind_self]
  · rw [get_bind_of_ne σ value hname, get_bind_of_ne τ value hname]
    exact h other (hother.resolve_right (Ne.symm hname))

/-- **A token keeps agreement** on whatever includes what it refers to, and adds what it assigns: the
step. -/
theorem Store.AgreeOn.install {asked : Text → Prop} {σ τ : Store} (h : σ.AgreeOn asked τ) {t : Token}
    (ht : ∀ name, RefersTo [t] name → asked name) :
    (t.install σ).AgreeOn (fun name => asked name ∨ AssignsTo [t] name) (t.install τ) := by
  cases t with
  | pipe => exact h.mono fun name hname => hname.resolve_right (by simp [AssignsTo])
  | item i =>
    cases i with
    | word w => exact h.mono fun name hname => hname.resolve_right (by simp [AssignsTo])
    | assign name value =>
      have hvalue : value.value σ = value.value τ :=
        Word.value_congr fun other hother => h other (ht other ⟨_, List.mem_singleton_self _, hother⟩)
      rw [Token.install, Token.install, hvalue]
      refine (h.bind name (value.value τ)).mono fun other hother => hother.imp_right ?_
      rintro ⟨v, hv⟩
      cases List.mem_singleton.1 hv
      rfl

/-- **Tokens keep agreement** on whatever includes what they refer to, and add what they assign: the
run. -/
theorem Store.AgreeOn.storeAfter {asked : Text → Prop} {σ τ : Store} (h : σ.AgreeOn asked τ)
    {ts : List Token} (hts : ∀ name, RefersTo ts name → asked name) :
    (storeAfter σ ts).AgreeOn (fun name => asked name ∨ AssignsTo ts name) (storeAfter τ ts) := by
  -- what the first token assigns is added to what is asked for, since later tokens may refer to it
  induction ts generalizing σ τ asked with
  | nil => exact h.mono fun name hname => hname.resolve_right (by simp [AssignsTo])
  | cons t ts ih =>
    have hfirst : ∀ name, RefersTo [t] name → asked name := by
      rintro name ⟨i, hi, hname⟩
      exact hts name ⟨i, List.mem_cons.2 (.inl (List.mem_singleton.1 hi)), hname⟩
    have hrest : ∀ name, RefersTo ts name → asked name ∨ AssignsTo [t] name := by
      rintro name ⟨i, hi, hname⟩
      exact .inl (hts name ⟨i, List.mem_cons_of_mem t hi, hname⟩)
    refine (ih (h.install hfirst) hrest).mono fun name hname => ?_
    rw [or_assoc]
    refine hname.imp_right ?_
    rintro ⟨value, hvalue⟩
    exact (List.mem_cons.1 hvalue).imp (fun hv => ⟨value, List.mem_singleton.2 hv⟩)
      fun hv => ⟨value, hv⟩

/-! ## Plans -/

/-- **Every word of a line has the same text** in stores that agree on what the line refers to. -/
theorem textsBetweenPipes_congr {σ τ : Store} {ts : List Token} (h : σ.AgreeOn (RefersTo ts) τ) :
    textsBetweenPipes σ ts = textsBetweenPipes τ ts := by
  apply List.map_congr_left
  intro g hg
  apply List.filterMap_congr
  rintro ⟨t, k⟩ hx
  have hmem : t ∈ ts := List.fst_mem_of_mem_zipIdx (of_mem_splitOnP hg hx).1
  cases t with
  | pipe => rfl
  | item i =>
    cases i with
    | assign name value => rfl
    | word w =>
      -- the tokens before the word keep the stores in agreement on what it refers to
      have hbefore : ∀ name, RefersTo (ts.take k) name → RefersTo ts name := by
        rintro name ⟨i, hi, hname⟩
        exact ⟨i, List.mem_of_mem_take hi, hname⟩
      have hagree := h.storeAfter hbefore
      exact congrArg some (Word.value_congr fun name hname =>
        hagree name (.inl ⟨.word w, hmem, hname⟩))

/-- **Is the second store the first with the assignments of the tokens made?** Every other name keeps its
value, and is bound only if it was. -/
structure Store.OnlyAssigns (ts : List Token) (σ after : Store) : Prop where
  get_eq : ∀ name, ¬ AssignsTo ts name → after.get name = σ.get name
  isBound_iff : ∀ name, after.isBound name = true ↔ σ.isBound name = true ∨ AssignsTo ts name

/-- Tokens change a store only by their assignments. -/
theorem onlyAssigns_storeAfter (σ : Store) (ts : List Token) :
    σ.OnlyAssigns ts (storeAfter σ ts) where
  get_eq _ hname := get_storeAfter (fun value hvalue => hname ⟨value, hvalue⟩) σ
  isBound_iff _ := isBound_storeAfter

/-- **A line depends only on what it refers to.** If a line is accepted, it is accepted in every store
that agrees with the first one on the names that the line refers to, and there it has the same stages
with the same texts, or nothing to run in both. The stores after it agree on these names and on those
that the line assigns to, and each of them is what it was but for the assigned names. -/
theorem plan_of_agreeOn {σ τ : Store} {ts : List Token} (h : σ.AgreeOn (RefersTo ts) τ) {p : Plan}
    (hp : plan σ ts = .ok p) :
    ∃ q : Plan, plan τ ts = .ok q ∧ p.stages = q.stages ∧
      p.store.AgreeOn (fun name => RefersTo ts name ∨ AssignsTo ts name) q.store ∧
      σ.OnlyAssigns ts p.store ∧ τ.OnlyAssigns ts q.store := by
  have hwell := isWellFormed_of_plan hp
  obtain rfl := eq_readGroups_of_plan hp
  refine ⟨readGroups τ (groups ts), by rw [plan, if_pos hwell], ?_, ?_⟩
  · rw [stages_readGroups, stages_readGroups, ← textsBetweenPipes_eq, ← textsBetweenPipes_eq,
      textsBetweenPipes_congr h]
  · rw [store_readGroups_groups, store_readGroups_groups]
    exact ⟨h.storeAfter fun name hname => hname, onlyAssigns_storeAfter σ ts,
      onlyAssigns_storeAfter τ ts⟩

/-- The stores agree on `y`, which is empty in one of them and not bound in the other, and not on `u`,
whose name only stands in single quotes. -/
theorem plan_of_agreeOn_of_single_quotes :
    let σ : Store := .ofList [(['x'], ['1']), (['u'], ['2'])]
    let τ : Store := .ofList [(['u'], ['3']), (['x'], ['1']), (['y'], [])]
    let ts : List Token := [.assign ['y'] [.bare "$x".toList, .quoted .single "$u".toList],
      .word [.bare "echo".toList], .word [.quoted .double "$y".toList]]
    lex "y=$x'$u' echo \"$y\"".toList = .ok ts ∧ σ.AgreeOn (RefersTo ts) τ ∧
      σ.get ['u'] ≠ τ.get ['u'] ∧
      ∃ q : Plan, plan τ ts = .ok q ∧ q.stages = [⟨"echo".toList, ["1$u".toList]⟩] ∧
        q.store.get ['y'] = "1$u".toList ∧ q.store.get ['u'] = ['3'] := by
  intro σ τ ts
  have hagree : σ.AgreeOn (RefersTo ts) τ := by
    rintro name ⟨i, hi, part, hpart, hname⟩
    have hx : isName ['x'] = true := rfl
    have hy : isName ['y'] = true := rfl
    simp only [ts, List.mem_cons, Token.item.injEq, List.not_mem_nil, or_false] at hi
    rcases hi with rfl | rfl | rfl
    · rcases List.mem_cons.1 hpart with rfl | hpart
      · rw [(Text.refersTo_name_iff hx).1 hname]
        rfl
      · obtain rfl := List.mem_singleton.1 hpart
        cases hname
    · obtain rfl := List.mem_singleton.1 hpart
      exact absurd (Text.RefersTo.mem hname) (by decide)
    · obtain rfl := List.mem_singleton.1 hpart
      rw [(Text.refersTo_name_iff hy).1 hname]
      rfl
  have hplan : plan σ ts = .ok ⟨[⟨"echo".toList, ["1$u".toList]⟩],
      .ofList [(['x'], ['1']), (['u'], ['2']), (['y'], "1$u".toList)]⟩ := by cbv
  obtain ⟨q, hq, hstages, hsame, -, hkept⟩ := plan_of_agreeOn hagree hplan
  have hassigned : AssignsTo ts ['y'] := ⟨_, List.mem_cons_self⟩
  have hother : ¬ AssignsTo ts ['u'] := by
    rintro ⟨value, hvalue⟩
    simp [ts] at hvalue
  refine ⟨rfl, hagree, by decide, q, hq, hstages.symm, ?_, ?_⟩
  · rw [← hsame ['y'] (.inr hassigned)]
    rfl
  · rw [hkept.get_eq ['u'] hother]
    rfl

end PipeShell
