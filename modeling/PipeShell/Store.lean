import PipeShell.Text

/-! # Variable bindings

A store binds names to values for the length of a session. Bindings are only ever added or replaced.

* **`Store.bind`** — bind a name, replacing the binding it may have.
* **`Store.get`** — the value of a name; an unbound name reads as the empty text.
* **`Store.isBound`** — whether a name has been bound. -/

namespace PipeShell

/-- The bindings of a session, in the order in which the names were first bound. -/
structure Store where
  /-- The pairs of name and value. -/
  bindings : List (Text × Text) := []
  deriving DecidableEq, Repr

/-- The binding of a name in a list of pairs. -/
def Store.find? (name : Text) : List (Text × Text) → Option Text
  | [] => none
  | (n, v) :: rest => if n = name then some v else find? name rest

/-- A list of pairs with a name bound to a value, in place if the name is there. -/
def Store.update (name value : Text) : List (Text × Text) → List (Text × Text)
  | [] => [(name, value)]
  | (n, v) :: rest => if n = name then (name, value) :: rest else (n, v) :: update name value rest

/-- **Bind a name to a value.** -/
def Store.bind (σ : Store) (name value : Text) : Store := ⟨update name value σ.bindings⟩

/-- **The value of a name**, empty if it is not bound. -/
def Store.get (σ : Store) (name : Text) : Text := (find? name σ.bindings).getD []

/-- **Is the name bound?** -/
def Store.isBound (σ : Store) (name : Text) : Bool := (find? name σ.bindings).isSome

/-- The store with the given bindings, a later one replacing an earlier one of the same name. -/
def Store.ofList (bs : List (Text × Text)) : Store :=
  bs.foldl (fun σ b => σ.bind b.1 b.2) {}

/-- A pair of an updated list is found under its name, and every other name keeps its value. -/
theorem Store.find?_update (name other value : Text) (bs : List (Text × Text)) :
    find? other (update name value bs) = if name = other then some value else find? other bs := by
  induction bs with
  | nil => rfl
  | cons b bs ih =>
    obtain ⟨n, v⟩ := b
    by_cases hn : n = name
    · subst hn
      by_cases ho : n = other <;> simp [update, find?, ho]
    · by_cases ho : name = other
      · subst ho
        simp_all [update, find?]
      · simp [update, find?, hn, ih, ho]

/-- The value just bound is read back. -/
@[simp] theorem Store.get_bind_self (σ : Store) (name value : Text) :
    (σ.bind name value).get name = value := by
  simp [get, bind, find?_update]

/-- Binding one name leaves the values of the others. -/
theorem Store.get_bind_of_ne (σ : Store) {name other : Text} (value : Text)
    (h : name ≠ other) : (σ.bind name value).get other = σ.get other := by
  simp [get, bind, find?_update, h]

/-- After binding a name, it and the names bound before are bound. -/
@[simp] theorem Store.isBound_bind (σ : Store) (name other value : Text) :
    (σ.bind name value).isBound other = (decide (name = other) || σ.isBound other) := by
  by_cases h : name = other <;> simp [isBound, bind, find?_update, h]

/-- Every name reads as the empty text at first. -/
@[simp] theorem Store.get_empty (name : Text) : Store.get {} name = [] := rfl

/-- Nothing is bound at first. -/
@[simp] theorem Store.isBound_empty (name : Text) : Store.isBound {} name = false := rfl

end PipeShell
