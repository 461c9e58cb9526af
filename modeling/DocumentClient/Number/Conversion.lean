import DocumentClient.Number.Shortest

/-!
# Converting between number types

A `Conversion` is the policy for numbers that do not fit. The strict policy refuses every change of
value. Overflow, if allowed, wraps modulo `2 ^ 32`; truncation, if allowed, drops the fraction.
-/

namespace DocumentClient.Number

structure Conversion where
  allowOverflow : Bool := false
  allowTruncation : Bool := false
deriving DecidableEq, Repr

/-- A number as it stood before the conversion. -/
inductive Quantity where
  | uint32 (n : UInt32)
  | int32 (n : Int32)
  | int64 (n : Int64)
  | double (bits : UInt64)
deriving DecidableEq, Repr

def Quantity.text : Quantity → String
  | .uint32 n => toString n.toNat
  | .int32 n => toString n.toInt
  | .int64 n => toString n.toInt
  | .double bits => plainText.write bits

inductive ConversionFault where
  /-- The number is outside the range of the target. -/
  | overflow (source : Quantity) (target : String)
  /-- The number has a fraction that the target cannot hold. -/
  | truncation (bits : UInt64)
deriving DecidableEq, Repr

def ConversionFault.message : ConversionFault → String
  | .overflow source target =>
    "Arithmetic overflow converting " ++ source.text ++ " to " ++ target
  | .truncation bits =>
    "Truncation resulted in data loss converting " ++ plainText.write bits ++ " to UInt32"

namespace Conversion

/-- The policy that refuses every change of value. -/
def strict : Conversion := {}

/-- The whole part of a number as a signed 64-bit number, clamped to its range, then wrapped to 32
bits. -/
def wrapped (negative : Bool) (whole : Nat) : UInt32 :=
  if negative then UInt32.ofInt (-(min whole (2 ^ 63) : Nat))
  else UInt32.ofNat (min whole (2 ^ 63 - 1))

/-- A double as an unsigned word. A number in range may lose its fraction only if truncation is
allowed; a number out of range wraps if overflow is allowed. -/
def uint32OfDouble (policy : Conversion) (bits : UInt64) : Except ConversionFault UInt32 :=
  let refused : Except ConversionFault UInt32 := .error (.overflow (.double bits) "UInt32")
  match reading bits with
  | .nan _ => refused
  | .infinite negative =>
    if policy.allowOverflow then .ok (wrapped negative (2 ^ 63)) else refused
  | .finite negative mantissa exponent =>
    let whole := wholePart mantissa exponent
    let fraction := hasFraction mantissa exponent
    let inRange := (mantissa = 0 ∨ negative = false)
      ∧ (whole < 2 ^ 32 - 1 ∨ (whole = 2 ^ 32 - 1 ∧ fraction = false))
    if ¬ inRange then
      if policy.allowOverflow then .ok (wrapped negative whole) else refused
    else if fraction ∧ ¬ policy.allowTruncation then .error (.truncation bits)
    else .ok (UInt32.ofNat whole)

def uint32OfInt32 (policy : Conversion) (n : Int32) : Except ConversionFault UInt32 :=
  if n.toInt < 0 ∧ ¬ policy.allowOverflow then .error (.overflow (.int32 n) "UInt32")
  else .ok (UInt32.ofInt n.toInt)

def uint32OfInt64 (policy : Conversion) (n : Int64) : Except ConversionFault UInt32 :=
  if (n.toInt < 0 ∨ 2 ^ 32 ≤ n.toInt) ∧ ¬ policy.allowOverflow then
    .error (.overflow (.int64 n) "UInt32")
  else .ok (UInt32.ofInt n.toInt)

def int32OfUInt32 (policy : Conversion) (n : UInt32) : Except ConversionFault Int32 :=
  if 2 ^ 31 ≤ n.toNat ∧ ¬ policy.allowOverflow then .error (.overflow (.uint32 n) "Int32")
  else .ok (Int32.ofInt n.toNat)

/-- An unsigned word as a signed long word, which always fits. -/
def int64OfUInt32 (n : UInt32) : Int64 :=
  Int64.ofInt n.toNat

end Conversion

/-- The largest word passes the strict policy, a half beyond it does not. -/
example : Conversion.strict.uint32OfDouble 0x41efffffffe00000 = .ok 4294967295 := rfl
example : Conversion.strict.uint32OfDouble 0x41effffffff00000 =
    .error (.overflow (.double 0x41effffffff00000) "UInt32") := rfl

end DocumentClient.Number
