/-!
# Scanning

A scanner takes characters from the front of a text and yields a value, or refuses the text. Where
one scanner refuses, another can try from the same place (`<|>`).

* `Scan.many` repeats a scanner. It is total because a text of `n` characters allows `n` rounds that
  take some, and one that ends the run.
* `Scan.blanks`, `Scan.newline`, `Scan.comment` and `Scan.gap` take what stands between the tokens.
-/

namespace DocumentClient.Toml

/-- Takes characters from the front of a text, or refuses it. The number is the length of the whole
text, which bounds every run. -/
abbrev Scan := ReaderT Nat (StateT (List Char) Option)

namespace Scan

/-- The next character, which stays where it is. -/
def ahead : Scan (Option Char) := fun _ cs => some (cs.head?, cs)

/-- The longest run of characters of a class, which may be empty. -/
def run (p : Char → Bool) : Scan (List Char) := fun _ cs => some (cs.takeWhile p, cs.dropWhile p)

/-- The next characters, of which there have to be enough. -/
def next (count : Nat) : Scan (List Char) := fun _ cs =>
  if count ≤ (cs.take count).length then some (cs.take count, cs.drop count) else none

/-- Takes the given characters if they come next, and says whether they did. -/
def takes (token : List Char) : Scan Bool := fun _ cs =>
  if token.isPrefixOf cs then some (true, cs.drop token.length) else some (false, cs)

/-- Takes the given characters and refuses any other. -/
def expect (token : String) : Scan Unit := do guard (← takes token.toList)

/-- What a scanner yields, or nothing and no character taken. -/
def optional (scan : Scan α) : Scan (Option α) := (some <$> scan) <|> pure none

/-- What a scanner yields in so many rounds at most, after what it yielded in earlier ones. -/
def rounds (scan : List Char → Option (Option α × List Char)) :
    Nat → List α → List Char → Option (List α × List Char)
  | 0, _, _ => none
  | fuel + 1, earlier, cs =>
    match scan cs with
    | none => none
    | some (none, rest) => some (earlier.reverse, rest)
    | some (some a, rest) => rounds scan fuel (a :: earlier) rest

/-- What a scanner yields in round after round, until it yields nothing. Each round before the last
has to take a character. -/
def many (scan : Scan (Option α)) : Scan (List α) := fun size cs =>
  rounds (scan size) (size + 1) [] cs

def blanks : Scan (List Char) := run fun c => c = ' ' || c = '\t'

/-- The end of a line, if it is here. -/
def newline : Scan Bool := do
  if ← takes ['\n'] then return true else takes ['\r', '\n']

/-- Whether a character may stand in a comment or in a text: anything but control characters, of
which the tab alone is free. -/
def isPlain (c : Char) : Bool := c = '\t' || ('\x20' ≤ c && c ≠ '\x7f')

/-- A comment up to the end of its line, if one starts here. -/
def comment : Scan Bool := do
  if ← takes ['#'] then
    let _ ← run isPlain
    return true
  else return false

def gap : Scan Unit := do
  let _ ← many do
    if !(← blanks).isEmpty then return some ()
    else if ← newline then return some ()
    else if ← comment then return some ()
    else return none

/-- The rest of a line that may only hold a comment. -/
def endOfLine : Scan Unit := do
  let _ ← blanks
  let _ ← comment
  if ← newline then return () else guard ((← ahead) = none)

/-- One or more of a kind with a separator between them. -/
def separated (separator : String) (scan : Scan α) : Scan (List α) := do
  let first ← scan
  let others ← many do
    if ← takes separator.toList then some <$> scan else return none
  return first :: others

/-- Reads the whole of a text. -/
def whole (scan : Scan α) (text : String) : Option α :=
  match scan text.length text.toList with
  | some (a, []) => some a
  | _ => none

end Scan

end DocumentClient.Toml
