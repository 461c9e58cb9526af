/-!
# Decimal numbers and how they are laid out

A decimal number is a digit string with a power of ten. Its text is positional or scientific; a
`Layout` says which of the two is used when, and how each looks.
-/

namespace DocumentClient.Number

/-- The number `digits * 10 ^ exponent`. -/
structure Decimal where
  digits : Nat
  exponent : Int
deriving DecidableEq, Repr

namespace Decimal

/-- The digits as characters; zero has one digit. -/
def chars (d : Decimal) : List Char :=
  Nat.toDigits 10 d.digits

/-- The power of ten of the first digit. -/
def leadingExponent (d : Decimal) : Int :=
  d.exponent + d.chars.length - 1

/-- The digits with a decimal point and the zeros that this needs, but no further zeros. -/
def positional (d : Decimal) : List Char :=
  let cs := d.chars
  if 0 ≤ d.exponent then cs ++ List.replicate d.exponent.toNat '0'
  else
    let places := (-d.exponent).toNat
    if places < cs.length then cs.take (cs.length - places) ++ '.' :: cs.drop (cs.length - places)
    else '0' :: '.' :: (List.replicate (places - cs.length) '0' ++ cs)

/-- One digit, a point if more follow, the other digits, a mark, the sign and the power of ten. -/
def scientific (mark : Char) (d : Decimal) : List Char :=
  let e := d.leadingExponent
  let fraction := match d.chars with
    | [] => []
    | [c] => [c]
    | c :: cs => c :: '.' :: cs
  let sign := if 0 < e then ['+'] else if e < 0 then ['-'] else []
  fraction ++ mark :: (sign ++ Nat.toDigits 10 e.natAbs)

end Decimal

structure Layout where
  /-- The powers of ten of the first digit that are written positionally. -/
  positional : Int → Bool
  /-- Whether a whole number keeps one decimal place. -/
  keepsPlace : Bool
  /-- The mark before the power of ten. -/
  mark : Char

def Layout.write (layout : Layout) (d : Decimal) : List Char :=
  if layout.positional d.leadingExponent then
    if layout.keepsPlace ∧ 0 ≤ d.exponent then d.positional ++ ['.', '0'] else d.positional
  else d.scientific layout.mark

example : Decimal.positional ⟨12345, -2⟩ = ['1', '2', '3', '.', '4', '5'] := by decide
example : Decimal.positional ⟨1, -3⟩ = ['0', '.', '0', '0', '1'] := by decide
example : Decimal.scientific 'e' ⟨15, 20⟩ = ['1', '.', '5', 'e', '+', '2', '1'] := by decide

end DocumentClient.Number
