/-!
# Little-endian numerals

Every length, count and integer on the wire is a little-endian numeral of a fixed width.

* `digits w n` are the `w` lowest base-256 digits of `n`, lowest first; `value` reads digits back.
* `value_digits`: reading the digits of `n` gives `n` modulo `256 ^ w`.
* `digits_value`: every list of bytes is the digits of its own value.
-/

namespace DocumentClient.Bytes

/-!
## Core's instances

Powers of numbers and equality of byte strings are the core library's throughout, whatever else is
imported: every definition then reduces the same way in every file that uses it.
-/

attribute [instance (high), default_instance high + 1] instPowNat
attribute [instance (high)] ByteArray.instDecidableEq

/-! ## Digits -/

/-- The `w` lowest base-256 digits of `n`, lowest first. -/
def digits : Nat → Nat → List UInt8
  | 0, _ => []
  | w + 1, n => UInt8.ofNat n :: digits w (n / 256)

/-- The number that a list of base-256 digits stands for, lowest digit first. -/
def value : List UInt8 → Nat
  | [] => 0
  | b :: bs => b.toNat + 256 * value bs

@[simp] theorem length_digits (w n : Nat) : (digits w n).length = w := by
  induction w generalizing n with
  | zero => rfl
  | succ w ih => simp [digits, ih]

theorem value_digits (w n : Nat) : value (digits w n) = n % 256 ^ w := by
  induction w generalizing n with
  | zero => simp [digits, value, Nat.mod_one]
  | succ w ih =>
    have byte : (UInt8.ofNat n).toNat = n % 256 := UInt8.toNat_ofNat'
    rw [digits, value, ih, byte, Nat.pow_succ', Nat.mod_mul]

theorem digits_value (bs : List UInt8) : digits bs.length (value bs) = bs := by
  induction bs with
  | nil => rfl
  | cons b bs ih =>
    have small : b.toNat < 256 := b.toNat_lt
    have low : UInt8.ofNat (b.toNat + 256 * value bs) = b := by
      apply UInt8.toNat_inj.1
      rw [UInt8.toNat_ofNat']
      omega
    have high : (b.toNat + 256 * value bs) / 256 = value bs := by omega
    rw [List.length_cons, digits, value, low, high, ih]

theorem value_lt (bs : List UInt8) : value bs < 256 ^ bs.length := by
  induction bs with
  | nil => simp [value]
  | cons b bs ih =>
    have small : b.toNat < 256 := b.toNat_lt
    rw [value, List.length_cons, Nat.pow_succ]
    omega

/-! ## Byte strings -/

/-- `n` as a numeral of `w` bytes; what does not fit is dropped. -/
def numeral (w n : Nat) : ByteArray :=
  ⟨(digits w n).toArray⟩

/-- The numeral that a byte string is. -/
def number (bs : ByteArray) : Nat :=
  value bs.data.toList

@[simp] theorem size_numeral (w n : Nat) : (numeral w n).size = w := by
  simp [numeral, ByteArray.size]

theorem number_numeral (w n : Nat) : number (numeral w n) = n % 256 ^ w := by
  simp [number, numeral, value_digits]

def ofInt32 (v : Int32) : ByteArray :=
  numeral 4 v.toUInt32.toNat

def toInt32 (bs : ByteArray) : Int32 :=
  (UInt32.ofNat (number bs)).toInt32

def ofUInt64 (v : UInt64) : ByteArray :=
  numeral 8 v.toNat

def toUInt64 (bs : ByteArray) : UInt64 :=
  UInt64.ofNat (number bs)

def ofInt64 (v : Int64) : ByteArray :=
  ofUInt64 v.toUInt64

def toInt64 (bs : ByteArray) : Int64 :=
  (toUInt64 bs).toInt64

theorem toInt32_ofInt32 (v : Int32) : toInt32 (ofInt32 v) = v := by
  simp [toInt32, ofInt32, number_numeral]

theorem toUInt64_ofUInt64 (v : UInt64) : toUInt64 (ofUInt64 v) = v := by
  simp [toUInt64, ofUInt64, number_numeral]

theorem toInt64_ofInt64 (v : Int64) : toInt64 (ofInt64 v) = v := by
  simp [toInt64, ofInt64, toUInt64_ofUInt64]

def ofVector {n : Nat} (v : Vector UInt8 n) : ByteArray :=
  ⟨v.toArray⟩

/-- The first `n` bytes of a byte string, which has at least that many. -/
def toVector (n : Nat) (bs : ByteArray) : Vector UInt8 n :=
  Vector.ofFn fun i => bs.get! i.val

example : digits 4 0x01020304 = [4, 3, 2, 1] := by decide
example : value [0xd4, 0x07, 0, 0] = 2004 := by decide

end DocumentClient.Bytes
