import DocumentClient.Toml.Scan

/-!
# Text in quotes

A text stands between double quotes, where the backslash starts an escape, or between single quotes,
where nothing does. Three quotes instead of one let it run over several lines.

* `Scan.text` reads a text in any of its four forms.
* `Scan.key` reads a dotted key, whose parts are bare words or texts on one line.
-/

namespace DocumentClient.Toml

/-- The value of a digit in a number system of up to sixteen digits, if it is one. -/
def digitValue? (base : Nat) (c : Char) : Option Nat :=
  let value :=
    if '0' ≤ c ∧ c ≤ '9' then c.toNat - '0'.toNat
    else if 'a' ≤ c ∧ c ≤ 'f' then c.toNat - 'a'.toNat + 10
    else if 'A' ≤ c ∧ c ≤ 'F' then c.toNat - 'A'.toNat + 10
    else base
  if value < base then some value else none

def numberOf (base : Nat) (digits : List Char) : Nat :=
  digits.foldl (fun n c => n * base + (digitValue? base c).getD 0) 0

namespace Scan

/-- A character by its number in hexadecimal digits. -/
def numbered (width : Nat) : Scan (List Char) := do
  let digits ← next width
  guard (digits.all fun c => (digitValue? 16 c).isSome)
  let n := numberOf 16 digits
  if n.isValidChar then return [Char.ofNat n] else failure

/-- What the characters after a backslash stand for. -/
def escaped : Scan (List Char) := do
  match ← next 1 with
  | ['b'] => return ['\x08']
  | ['t'] => return ['\t']
  | ['n'] => return ['\n']
  | ['f'] => return ['\x0c']
  | ['r'] => return ['\r']
  | ['"'] => return ['"']
  | ['\\'] => return ['\\']
  | ['u'] => numbered 4
  | ['U'] => numbered 8
  | _ => failure

/-- A run of characters that stand for themselves, if it is not empty. -/
def plainBut (stops : List Char) : Scan (Option (List Char)) := do
  match ← run fun c => isPlain c && !stops.contains c with
  | [] => return none
  | cs => return some cs

/-- The end of a line in a text over several lines, which is always one character. -/
def lineBreak : Scan (Option (List Char)) := do
  if ← newline then return some ['\n'] else return none

/-- A backslash at the end of a line, and all blanks and line ends that follow. -/
def joint : Scan (List Char) := do
  let _ ← blanks
  guard (← newline)
  let _ ← many do
    if ← newline then return some ()
    else if (← blanks).isEmpty then return none
    else return some ()
  return []

/-- One or two quotes in a text that three quotes end. Up to two may stand right before the end. -/
def looseQuotes (quote : Char) : Scan (Option (List Char)) := fun _ cs =>
  let count := (cs.takeWhile (· = quote)).length
  let loose := if count < 3 then count else count - 3
  if loose = 0 ∨ 2 < loose then some (none, cs)
  else some (some (List.replicate loose quote), cs.drop loose)

/-- The first of several scanners that yields something. -/
def firstOf : List (Scan (Option α)) → Scan (Option α)
  | [] => return none
  | scan :: others => do
    match ← scan with
    | some a => return some a
    | none => firstOf others

/-- Text on one line between double quotes. -/
def basic : Scan String := do
  expect "\""
  let parts ← many (firstOf [plainBut ['"', '\\'], do
    if ← takes ['\\'] then some <$> escaped else return none])
  expect "\""
  return String.ofList parts.flatten

/-- Text on one line between single quotes. -/
def literal : Scan String := do
  expect "'"
  let cs ← run fun c => isPlain c && c ≠ '\''
  expect "'"
  return String.ofList cs

/-- Text over several lines between double quotes. An end of line right after them is dropped. -/
def basicBlock : Scan String := do
  expect "\"\"\""
  let _ ← newline
  let parts ← many (firstOf [plainBut ['"', '\\'], lineBreak, looseQuotes '"', do
    if ← takes ['\\'] then some <$> (joint <|> escaped) else return none])
  expect "\"\"\""
  return String.ofList parts.flatten

/-- Text over several lines between single quotes. An end of line right after them is dropped. -/
def literalBlock : Scan String := do
  expect "'''"
  let _ ← newline
  let parts ← many (firstOf [plainBut ['\''], lineBreak, looseQuotes '\''])
  expect "'''"
  return String.ofList parts.flatten

def text : Scan String := basicBlock <|> basic <|> literalBlock <|> literal

/-- Whether a character may stand in a key without quotes. -/
def isBare (c : Char) : Bool := c.isAlphanum || c = '-' || c = '_'

def keyPart : Scan String := do
  let _ ← blanks
  let part ← match ← ahead with
    | some '"' => basic
    | some '\'' => literal
    | _ => do
      let cs ← run isBare
      guard (!cs.isEmpty)
      pure (String.ofList cs)
  let _ ← blanks
  return part

/-- How deep keys may lead and values may nest. -/
def depthLimit : Nat := 80

/-- A key as the path to its table and its name there. -/
def key : Scan (List String × String) := do
  let parts ← separated "." keyPart
  guard (parts.length < depthLimit)
  match parts.getLast? with
  | some name => return (parts.dropLast, name)
  | none => failure

end Scan

end DocumentClient.Toml
