import DocumentClient.Bytes.Numeral
import DocumentClient.Number.Decimal

/-!
# Decimal floating point of 128 bits

Sixteen bytes hold a sign, an exponent and a coefficient of at most 34 digits. The text of a number
keeps the exponent: `1.0` and `1.00` are written as they are. A coefficient beyond 34 digits counts
as zero.
-/

namespace DocumentClient.Number

/-- What sixteen bytes stand for. -/
inductive Decimal128 where
  | nan
  | infinite (negative : Bool)
  /-- A decimal number with a sign, which zero has too. -/
  | finite (negative : Bool) (magnitude : Decimal)
deriving DecidableEq, Repr

def largestCoefficient : Nat := 10 ^ 34 - 1

/-- Decodes the 128 bits. The two top bits below the sign tell the long form of the exponent, whose
coefficient is always too large, from the short one. -/
def Decimal128.ofNat (n : Nat) : Decimal128 :=
  let negative := decide (2 ^ 127 ≤ n)
  let top := n / 2 ^ 123 % 16
  if top = 15 then
    if n / 2 ^ 122 % 2 = 1 then .nan else .infinite negative
  else
    let long := decide (12 ≤ top)
    let field : Nat := if long then n / 2 ^ 111 % 2 ^ 14 else n / 2 ^ 113 % 2 ^ 14
    let coefficient := if long then 2 ^ 113 + n % 2 ^ 111 else n % 2 ^ 113
    .finite negative ⟨if largestCoefficient < coefficient then 0 else coefficient, field - 6176⟩

/-- The number in sixteen bytes, lowest byte first. -/
def Decimal128.ofBytes (bytes : Vector UInt8 16) : Decimal128 :=
  ofNat (Bytes.value bytes.toList)

/-- A number is positional if its exponent is not positive and its first digit is at most six
places behind the point; otherwise it is scientific. -/
def Decimal128.text : Decimal128 → String
  | .nan => "NaN"
  | .infinite negative => if negative then "-Infinity" else "Infinity"
  | .finite negative d =>
    let cs := if d.exponent ≤ 0 ∧ -6 ≤ d.leadingExponent then d.positional else d.scientific 'E'
    String.ofList (if negative then '-' :: cs else cs)

example : Decimal128.ofNat (0x3040 * 2 ^ 112) = .finite false ⟨0, 0⟩ := by decide
example : Decimal128.ofNat (0x303c * 2 ^ 112 + 12345) = .finite false ⟨12345, -2⟩ := by decide
example : Decimal128.ofNat (0xf8 * 2 ^ 120) = .infinite true := by decide

end DocumentClient.Number
