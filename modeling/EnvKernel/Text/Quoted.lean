import EnvKernel.Text.Hex
import EnvKernel.Text.Invisible

/-!
Quoted text: a string between double quotes in which a quote, a backslash and every character
without a visible form is written as an escape. `quoteChar` is the rule for one character.
-/

namespace EnvKernel.Text

/-- How a character is written between quotes. -/
def quoteChar (c : Char) : String :=
  if c = '\x00' then "\\0"
  else if c = '\t' then "\\t"
  else if c = '\r' then "\\r"
  else if c = '\n' then "\\n"
  else if c = '\\' then "\\\\"
  else if c = '"' then "\\\""
  else if isInvisible c then "\\u\x7b" ++ hexDigits c.toNat ++ "\x7d"
  else c.toString

/-- A string between double quotes. -/
def quote (s : String) : String := "\"" ++ String.join (s.toList.map quoteChar) ++ "\""

/-- A list of strings between brackets, each one quoted. -/
def quoteList (names : List String) : String :=
  "[" ++ String.intercalate ", " (names.map quote) ++ "]"

example : quote "a\tb\\" = "\"a\\tb\\\\\"" := by decide +kernel
example : quote "del\x7f" = "\"del\\u\x7b7f\x7d\"" := by decide +kernel
example : quoteList ["nope", "x"] = "[\"nope\", \"x\"]" := by decide +kernel

end EnvKernel.Text
