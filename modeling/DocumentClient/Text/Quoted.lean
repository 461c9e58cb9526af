import DocumentClient.Text.Shown

/-!
# Quoted text

Messages show names and characters between quotes, with an escape for whatever would be misread:
the quote itself, the backslash, and characters that are not shown as themselves.
-/

namespace DocumentClient.Text

/-- The lower-case hexadecimal digits of a number, without leading zeros. -/
def hexNumber (n : Nat) : String :=
  String.ofList (Nat.toDigits 16 n)

/-- A character inside quotes of the given kind. -/
def escape (quote c : Char) : String :=
  if c = '\x00' then "\\0"
  else if c = '\t' then "\\t"
  else if c = '\r' then "\\r"
  else if c = '\n' then "\\n"
  else if c = quote ∨ c = '\\' then String.ofList ['\\', c]
  else if isShown c then String.singleton c
  else "\\u\x7b" ++ hexNumber c.toNat ++ "\x7d"

def quoted (s : String) : String :=
  "\"" ++ s.foldl (fun text c => text ++ escape '"' c) "" ++ "\""

def quotedChar (c : Char) : String :=
  "'" ++ escape '\'' c ++ "'"

example : escape '"' '\'' = "'" := by decide
example : escape '\'' '\'' = "\\'" := by decide
example : escape '"' (Char.ofNat 0x7f) = "\\u\x7b7f\x7d" := by decide

end DocumentClient.Text
