import DocumentClient.Number.Binary64
import DocumentClient.Number.Decimal

/-!
# The fewest digits that read back

A finite double stands for all the numbers that round to it. Its text has the fewest decimal digits
of any of these numbers and, among those, the digits nearest to the double itself.

For a count of digits the candidates are the two neighbours of the double on the decimal grid with
that many digits: if any point of a grid rounds to the double, one of the two does. An exact tie
between them goes to the larger one or to the even one, as the `Tie` says.
-/

namespace DocumentClient.Number

/-- Which of two equally near digit strings is taken. -/
inductive Tie where
  | up
  /-- The one whose last digit is even. -/
  | even
deriving DecidableEq, Repr

/-- The numbers that round to `mantissa * 2 ^ exponent`, in quarters of the last binary place: the
double lies at `4 * mantissa`, and the ends belong to the interval if the mantissa is even. The
place below a power of two is half as wide. -/
structure Rounding where
  mantissa : Nat
  exponent : Int
deriving DecidableEq, Repr

namespace Rounding

def low (r : Rounding) : Nat :=
  if r.mantissa = 2 ^ 52 then 4 * r.mantissa - 1 else 4 * r.mantissa - 2

def high (r : Rounding) : Nat :=
  4 * r.mantissa + 2

/-- The factor that turns quarters into the common unit of quarters and the grid `10 ^ power`. -/
def quarter (r : Rounding) (power : Int) : Nat :=
  2 ^ (r.exponent - 2).toNat * 10 ^ (-power).toNat

/-- The factor that turns grid steps of `10 ^ power` into the common unit. -/
def step (r : Rounding) (power : Int) : Nat :=
  10 ^ power.toNat * 2 ^ (2 - r.exponent).toNat

/-- Whether `d * 10 ^ power` rounds to the double. -/
def contains (r : Rounding) (d : Nat) (power : Int) : Bool :=
  let point := d * r.step power
  let low := r.low * r.quarter power
  let high := r.high * r.quarter power
  if r.mantissa % 2 = 0 then low ≤ point ∧ point ≤ high else low < point ∧ point < high

/-- The power of ten of the first digit of the double. -/
def leadingPower (r : Rounding) : Int :=
  let whole := wholePart r.mantissa r.exponent
  if 0 < whole then (Nat.toDigits 10 whole).length - 1
  else
    let bits := (-r.exponent).toNat
    match (List.range (bits + 1)).find? fun j => 2 ^ bits ≤ r.mantissa * 10 ^ j with
    | some j => -j
    | none => 0

/-- The nearest point of the grid `10 ^ power` that rounds to the double, if one does. -/
def candidate (r : Rounding) (tie : Tie) (power : Int) : Option Nat :=
  let place := 4 * r.mantissa * r.quarter power
  let below := place / r.step power
  let above := below + 1
  match r.contains below power, r.contains above power with
  | false, false => none
  | true, false => some below
  | false, true => some above
  | true, true =>
    let toBelow := place - below * r.step power
    let toAbove := above * r.step power - place
    if toBelow < toAbove then some below
    else if toAbove < toBelow then some above
    else match tie with
      | .up => some above
      | .even => if below % 2 = 0 then some below else some above

end Rounding

/-- Drops trailing zeros into the power of ten; `fuel` bounds their count. -/
def Decimal.trim : Nat → Decimal → Decimal
  | 0, d => d
  | fuel + 1, d =>
    if d.digits ≠ 0 ∧ d.digits % 10 = 0 then Decimal.trim fuel ⟨d.digits / 10, d.exponent + 1⟩ else d

/-- The shortest decimal of `mantissa * 2 ^ exponent`. Seventeen digits always suffice. -/
def shortest (tie : Tie) (mantissa : Nat) (exponent : Int) : Decimal :=
  if mantissa = 0 then ⟨0, 0⟩
  else
    let r : Rounding := ⟨mantissa, exponent⟩
    let lead := r.leadingPower
    let found := (List.range 17).findSome? fun (n : Nat) =>
      let power : Int := lead - n
      (r.candidate tie power).map fun d => (⟨d, power⟩ : Decimal)
    (found.getD ⟨0, 0⟩).trim 20

/-- How every kind of double is written. -/
structure DoubleText where
  layout : Layout
  tie : Tie
  nan : Bool → String
  infinite : Bool → String

/-- The text of a double; zero keeps its sign. -/
def DoubleText.write (text : DoubleText) (bits : UInt64) : String :=
  match reading bits with
  | .nan negative => text.nan negative
  | .infinite negative => text.infinite negative
  | .finite negative mantissa exponent =>
    let cs := text.layout.write (shortest text.tie mantissa exponent)
    String.ofList (if negative then '-' :: cs else cs)

/-- Messages show a double without a power of ten, and a whole one without a point. -/
def plainText : DoubleText where
  layout := { positional := fun _ => true, keepsPlace := false, mark := 'e' }
  tie := .up
  nan := fun _ => "NaN"
  infinite := fun negative => if negative then "-inf" else "inf"

example : shortest .up (3 * 2 ^ 51) (-52) = ⟨15, -1⟩ := by decide +kernel
example : shortest .even 1 (-1074) = ⟨5, -324⟩ := by decide +kernel
example : shortest .even (2 ^ 52 + 1) (-2) = ⟨11258999068426242, -1⟩ := by decide +kernel
example : shortest .up (2 ^ 52 + 1) (-2) = ⟨11258999068426243, -1⟩ := by decide +kernel

end DocumentClient.Number
