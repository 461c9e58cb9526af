import DocumentClient.Bytes.Hex

/-!
# Writing text in quotes

A text is written in the form that shows it best: on one line or several, between double quotes where
nothing has to be escaped, else between single quotes. Escapes come last.
-/

namespace DocumentClient.Toml

/-- What a text holds that some of its forms cannot show. -/
structure TextContent where
  /-- Control characters other than the tab and the end of a line. -/
  control : Bool
  backslash : Bool
  lineEnd : Bool
  /-- The most double quotes and single quotes in a row. -/
  doubleQuotes : Nat
  singleQuotes : Nat
deriving Repr

/-- Whether a character is written by its number or by a letter of its own. -/
def isControl (c : Char) : Bool :=
  (c < '\x20' && c ≠ '\t' && c ≠ '\n') || c = '\x7f'

/-- The length of the longest run of a character, where `now` of them have just been seen. -/
def longestRun (x : Char) (now : Nat) : List Char → Nat
  | [] => now
  | c :: cs => if c = x then longestRun x (now + 1) cs else max now (longestRun x 0 cs)

def TextContent.of (cs : List Char) : TextContent where
  control := cs.any isControl
  backslash := cs.contains '\\'
  lineEnd := cs.contains '\n'
  doubleQuotes := longestRun '"' 0 cs
  singleQuotes := longestRun '\'' 0 cs

inductive TextForm where
  | basic
  | literal
  | basicBlock
  | literalBlock
deriving DecidableEq, Repr

/-- The form that a text is written in. -/
def TextContent.form (t : TextContent) : TextForm :=
  if !t.control && !t.backslash && t.doubleQuotes = 0 && !t.lineEnd then .basic
  else if !t.control && t.singleQuotes = 0 && !t.lineEnd then .literal
  else if !t.control && !t.backslash && t.doubleQuotes ≤ 2 then .basicBlock
  else if !t.control && t.singleQuotes ≤ 2 then .literalBlock
  else if t.lineEnd then .basicBlock
  else .basic

/-- Characters between double quotes. Of quotes in a row, `free` need no escape, and ends of lines
need none in a block; `quotes` have just been written. -/
def escapeChars (block : Bool) (free : Nat) (quotes : Nat) : List Char → List Char
  | [] => []
  | c :: cs =>
    if c = '"' then
      if quotes < free then c :: escapeChars block free (quotes + 1) cs
      else '\\' :: '"' :: escapeChars block free 0 cs
    else
      let shown :=
        if c = '\x08' then ['\\', 'b']
        else if c = '\t' then ['\\', 't']
        else if c = '\n' then if block then ['\n'] else ['\\', 'n']
        else if c = '\x0c' then ['\\', 'f']
        else if c = '\r' then ['\\', 'r']
        else if c = '\\' then ['\\', '\\']
        else if isControl c then
          ['\\', 'u', '0', '0'] ++ (Bytes.hexPair c.toNat.toUInt8).map Char.toUpper
        else [c]
      shown ++ escapeChars block free 0 cs

/-- A text in a form. A block that holds the end of a line starts with one, which readers drop. -/
def TextForm.write (form : TextForm) (cs : List Char) : List Char :=
  let opening := if cs.contains '\n' then ['\n'] else []
  match form with
  | .basic => '"' :: (escapeChars false 0 0 cs ++ ['"'])
  | .literal => '\'' :: (cs ++ ['\''])
  | .basicBlock =>
    List.replicate 3 '"' ++ opening ++ escapeChars true 2 0 cs ++ List.replicate 3 '"'
  | .literalBlock => List.replicate 3 '\'' ++ opening ++ cs ++ List.replicate 3 '\''

def quoted (s : String) : String :=
  String.ofList ((TextContent.of s.toList).form.write s.toList)

example : quoted "info" = "\"info\"" := by cbv
example : quoted "a\\b" = "'a\\b'" := by cbv
example : quoted "\x01" = "\"\\u0001\"" := by cbv

end DocumentClient.Toml
