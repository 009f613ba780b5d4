import PipeShell.Text

/-! # The language of messages

* **`Locale`** — the languages messages are written in.
* **`Locale.parse`** — the reading of a language's name, in letters of either case. -/

namespace PipeShell

/-- A language of messages. -/
inductive Locale where
  /-- Russian. -/
  | ru
  /-- English. -/
  | en
  deriving DecidableEq, Repr

/-- Messages are in Russian unless another language is asked for. -/
instance : Inhabited Locale := ⟨.ru⟩

/-- The name of a language. -/
def Locale.name : Locale → Text
  | .ru => "ru".toList
  | .en => "en".toList

/-- The wording for a language, out of the wordings for each. -/
def Locale.choose (l : Locale) (ru en : String) : Text :=
  match l with
  | .ru => ru.toList
  | .en => en.toList

/-- A name that no language has, with its ASCII letters in lower case. -/
structure UnknownLocale where
  name : Text
  deriving DecidableEq, Repr

/-- What is wrong with the name, in words. -/
def UnknownLocale.message (e : UnknownLocale) : Text :=
  "unknown locale `".toList ++ e.name ++ "`, expected `ru` or `en`".toList

/-- **The language with a given name.** The case of ASCII letters does not matter. -/
def Locale.parse (t : Text) : Except UnknownLocale Locale :=
  if t.map Char.toLower = Locale.ru.name then .ok .ru
  else if t.map Char.toLower = Locale.en.name then .ok .en
  else .error ⟨t.map Char.toLower⟩

/-- The name of a language is read back. -/
@[simp] theorem Locale.parse_name (l : Locale) : parse l.name = .ok l := by
  cases l <;> rfl

example : Locale.parse "eN".toList = .ok .en ∧ Locale.parse "En ".toList = .error ⟨"en ".toList⟩ :=
  ⟨rfl, rfl⟩

end PipeShell
