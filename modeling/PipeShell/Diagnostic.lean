import PipeShell.Locale
import PipeShell.Stream
import PipeShell.Text.Fields
import PipeShell.Token.Lexer

/-! # Diagnostics

Everything that is reported to the user is a `Diagnostic`. It is one line of fields joined by `: `,
the first naming who reports; only the last fields depend on the language.

* **`Diagnostic`** — the causes.
* **`Diagnostic.text`** — the wording.
* **`Diagnostic.line`** — the bytes that are written for it. -/

namespace PipeShell

/-- What can be reported. -/
inductive Diagnostic where
  /-- No command has this name. -/
  | unknownCommand (cmd : Text)
  /-- A command cannot read a file. -/
  | unreadable (cmd name : Text)
  /-- The length of the context is missing or is no number. -/
  | badCount (cmd : Text)
  /-- A command has no such option; the flag is given with its dash. -/
  | unknownOption (cmd flag : Text)
  /-- There is nothing to search for. -/
  | noPattern (cmd : Text)
  /-- The line is rejected. -/
  | rejected (reason : Rejection)
  /-- A stream of a command has failed. -/
  | streamFailed (cmd : Text) (failure : StreamFailure)
  deriving DecidableEq, Repr

/-- The name under which the shell itself reports. -/
def ownName : Text := "terminal".toList

/-- The separator of fields. -/
def fieldSeparator : Text := ": ".toList

/-- The wording of a rejection. -/
def Rejection.phrase (l : Locale) : Rejection → Text
  | .unclosedQuote => l.choose "непарная кавычка" "unmatched quote"
  | .missingCommand => l.choose "пустая команда в конвейере" "empty pipeline stage"

/-- The fields of a diagnostic. -/
def Diagnostic.fields (l : Locale) : Diagnostic → List Text
  | .unknownCommand cmd => [cmd, l.choose "команда не найдена" "command not found"]
  | .unreadable cmd name =>
    [cmd, name, l.choose "Нет такого файла или каталога" "No such file or directory"]
  | .badCount cmd =>
    [cmd, "bad_context".toList,
      l.choose "Неверный аргумент длины контекста" "Invalid context length"]
  | .unknownOption cmd flag => [cmd, flag, l.choose "Неверный ключ" "Invalid option"]
  | .noPattern cmd =>
    [cmd, "pattern".toList, l.choose "Не задан шаблон поиска" "No pattern given"]
  | .rejected reason =>
    [ownName, l.choose "синтаксическая ошибка" "syntax error", reason.phrase l]
  | .streamFailed cmd failure => [cmd, failure.message]

/-- **The wording of a diagnostic**, without a line end. -/
def Diagnostic.text (l : Locale) (d : Diagnostic) : Text := fieldSeparator.intercalate (d.fields l)

/-- **The bytes written for a diagnostic**: its wording and a line feed. -/
def Diagnostic.line (l : Locale) (d : Diagnostic) : Bytes := (d.text l).utf8 ++ [lineFeed]

/-- The label of a line of totals. -/
def Locale.total (l : Locale) : Text := l.choose "итого" "total"

/-- A diagnostic is never written as nothing. -/
theorem Diagnostic.line_ne_nil (l : Locale) (d : Diagnostic) : d.line l ≠ [] := by
  simp [line]

example : Diagnostic.text .en (.unreadable "wc".toList "a b".toList)
    = "wc: a b: No such file or directory".toList := by
  decide +kernel

example : Diagnostic.text .ru (.rejected .unclosedQuote)
    = "terminal: синтаксическая ошибка: непарная кавычка".toList := by
  decide +kernel

end PipeShell
