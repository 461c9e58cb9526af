import DocumentClient.Number.Decimal
import DocumentClient.Toml.Text
import DocumentClient.Toml.Tree

/-!
# Numbers, moments and truth values

The values without parts other than texts. Integers have 64 bits and may be written in four number
systems; a float has to be in the range of doubles; a moment is a date, a time of day, or both.
-/

namespace DocumentClient.Toml

/-- The least decimal number that is read as infinity: half a unit above the largest double. -/
def infinityThreshold : Nat := 2 ^ 1024 - 2 ^ 970

/-- Whether a decimal number is too large for a double. The power of ten of the first digit decides
unless it is that of the threshold. -/
def exceedsDoubles (d : Number.Decimal) : Bool :=
  let power := d.leadingExponent
  if d.digits = 0 ∨ power < 308 then false
  else if 308 < power then true
  else infinityThreshold * 10 ^ (-d.exponent).toNat ≤ d.digits * 10 ^ d.exponent.toNat

def daysIn (year month : Nat) : Nat :=
  if month = 2 then if year % 4 = 0 ∧ (year % 100 ≠ 0 ∨ year % 400 = 0) then 29 else 28
  else if month = 4 ∨ month = 6 ∨ month = 9 ∨ month = 11 then 30
  else 31

namespace Scan

/-- Digits with underscores only between digits. -/
def digits (base : Nat) : Scan (List Char) := do
  let cs ← run fun c => (digitValue? base c).isSome || c = '_'
  guard ((cs.splitOn '_').all fun group => !group.isEmpty)
  return cs.filter (· ≠ '_')

/-- A sign, which may be missing: whether it is a minus. -/
def sign : Scan Bool := do
  if ← takes ['-'] then return true
  let _ ← takes ['+']
  return false

/-- Decimal digits that do not start with a needless zero. -/
def wholeDigits : Scan (List Char) := do
  let cs ← digits 10
  guard (cs.length = 1 ∨ cs.head? ≠ some '0')
  return cs

/-- An integer in the number system that its first two characters name. -/
def integerIn (mark : String) (base : Nat) : Scan Int := do
  expect mark
  let cs ← digits base
  return numberOf base cs

/-- An integer of 64 bits. -/
def integer : Scan Node := do
  let n ← integerIn "0x" 16 <|> integerIn "0o" 8 <|> integerIn "0b" 2 <|> do
    let negative ← sign
    let cs ← wholeDigits
    pure (if negative then -(numberOf 10 cs : Int) else numberOf 10 cs)
  guard (-2 ^ 63 ≤ n ∧ n < 2 ^ 63)
  return .integer n

def power : Scan Int := do
  guard ((← takes ['e']) || (← takes ['E']))
  let negative ← sign
  let cs ← digits 10
  return if negative then -(numberOf 10 cs : Int) else numberOf 10 cs

/-- A float. Only a negative one may lie beyond all doubles. -/
def float : Scan Node := do
  let negative ← sign
  if (← takes "inf".toList) || (← takes "nan".toList) then return .float
  let before ← wholeDigits
  let (after, exponent) ← (do return ([], ← power)) <|> do
    expect "."
    let after ← digits 10
    pure (after, (← optional power).getD 0)
  let d : Number.Decimal := ⟨numberOf 10 (before ++ after), exponent - after.length⟩
  guard (negative ∨ !exceedsDoubles d)
  return .float

/-- A number of exactly so many digits within bounds. -/
def fixed (width least greatest : Nat) : Scan Nat := do
  let cs ← next width
  guard (cs.all fun c => (digitValue? 10 c).isSome)
  let n := numberOf 10 cs
  guard (least ≤ n ∧ n ≤ greatest)
  return n

def date : Scan Unit := do
  let year ← fixed 4 0 9999
  expect "-"
  let month ← fixed 2 1 12
  expect "-"
  let _ ← fixed 2 1 (daysIn year month)

/-- A time of day, with a leap second and with parts of a second. -/
def time : Scan Unit := do
  let _ ← fixed 2 0 23
  expect ":"
  let _ ← fixed 2 0 59
  expect ":"
  let _ ← fixed 2 0 60
  let _ ← optional do
    expect "."
    guard (!(← run fun c => (digitValue? 10 c).isSome).isEmpty)

/-- How far a clock is from universal time. -/
def offset : Scan Unit := do
  if (← takes ['Z']) || (← takes ['z']) then return ()
  guard ((← takes ['+']) || (← takes ['-']))
  let _ ← fixed 2 0 23
  expect ":"
  let _ ← fixed 2 0 59

/-- A day, a time of day, or both and perhaps an offset. -/
def moment : Scan Node := do
  let onDay : Scan Unit := do
    date
    let _ ← optional do
      guard ((← takes ['T']) || (← takes ['t']) || (← takes [' ']))
      time
      let _ ← optional offset
  onDay <|> time
  return .moment

def boolean : Scan Node := do
  if ← takes "true".toList then return .boolean true
  expect "false"
  return .boolean false

def scalar : Scan Node :=
  (.text <$> text) <|> boolean <|> moment <|> float <|> integer

end Scan

example : (Scan.whole Scan.scalar "1_000") matches some (.integer 1000) := by cbv
example : (Scan.whole Scan.scalar "1__0") matches none := by cbv
example : (Scan.whole Scan.scalar "2023-02-29") matches none := by cbv

end DocumentClient.Toml
