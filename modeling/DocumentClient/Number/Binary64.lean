/-!
# Doubles as bit patterns

A double is kept as its 64 bits, so that a value that is only passed on stays the same to the last
bit. What the bits stand for is an exact number `mantissa * 2 ^ exponent`, an infinity or no number.

* `reading` decodes the bits; `wholePart` and `hasFraction` split a finite number exactly.
* `equal` is equality of numbers: the two zeros are equal, and what is no number equals nothing.
-/

namespace DocumentClient.Number

inductive Reading where
  /-- Not a number; the sign bit has no meaning but is kept. -/
  | nan (negative : Bool)
  | infinite (negative : Bool)
  /-- The number `mantissa * 2 ^ exponent`, with a sign, which zero has too. -/
  | finite (negative : Bool) (mantissa : Nat) (exponent : Int)
deriving DecidableEq, Repr

/-- Decodes sign, exponent field and fraction. -/
def reading (bits : UInt64) : Reading :=
  let negative := decide (2 ^ 63 ≤ bits.toNat)
  let field : Nat := bits.toNat / 2 ^ 52 % 2048
  let fraction := bits.toNat % 2 ^ 52
  if field = 2047 then
    if fraction = 0 then .infinite negative else .nan negative
  else if field = 0 then .finite negative fraction (-1074)
  else .finite negative (2 ^ 52 + fraction) (field - 1075)

/-- The whole part of `mantissa * 2 ^ exponent`. -/
def wholePart (mantissa : Nat) (exponent : Int) : Nat :=
  mantissa * 2 ^ exponent.toNat / 2 ^ (-exponent).toNat

/-- Whether `mantissa * 2 ^ exponent` has a fractional part. -/
def hasFraction (mantissa : Nat) (exponent : Int) : Bool :=
  mantissa % 2 ^ (-exponent).toNat ≠ 0

/-- Equality of doubles as numbers. -/
def equal (a b : UInt64) : Bool :=
  match reading a, reading b with
  | .nan _, _ => false
  | _, .nan _ => false
  | .finite _ 0 _, .finite _ 0 _ => true
  | _, _ => a = b

/-- The double that a 32-bit number is; every such number is one. -/
def ofUInt32 (n : UInt32) : UInt64 :=
  let value := n.toNat
  if value = 0 then 0
  else
    let scale := value.log2
    UInt64.ofNat ((1023 + scale) * 2 ^ 52 + (value - 2 ^ scale) * 2 ^ (52 - scale))

example : reading 0x3ff8000000000000 = .finite false (3 * 2 ^ 51) (-52) := by decide
example : reading 0x8000000000000000 = .finite true 0 (-1074) := by decide
example : reading 0xfff0000000000000 = .infinite true := by decide
example : ofUInt32 4294967295 = 0x41efffffffe00000 := by decide
example : equal 0 0x8000000000000000 = true := by decide

end DocumentClient.Number
