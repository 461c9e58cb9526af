/-!
# Hexadecimal text

Two digits a byte, high half first. Writing uses lower-case digits; reading takes both cases and
says which digit it could not read.
-/

namespace DocumentClient.Bytes

/-- The lower-case digit of a number below sixteen. -/
def hexDigit (n : Nat) : Char :=
  if n < 10 then Char.ofNat (0x30 + n) else Char.ofNat (0x57 + n)

def hexPair (b : UInt8) : List Char :=
  [hexDigit (b.toNat / 16), hexDigit (b.toNat % 16)]

def toHex (bs : ByteArray) : String :=
  bs.foldl (fun text b => (text.push (hexDigit (b.toNat / 16))).push (hexDigit (b.toNat % 16))) ""

/-- The value of a digit, which is a byte of text. -/
def hexValue? (b : UInt8) : Option Nat :=
  let n := b.toNat
  if 0x30 ≤ n ∧ n ≤ 0x39 then some (n - 0x30)
  else if 0x61 ≤ n ∧ n ≤ 0x66 then some (n - 0x57)
  else if 0x41 ≤ n ∧ n ≤ 0x46 then some (n - 0x37)
  else none

/-- Why a text is no hexadecimal byte string. -/
inductive HexFault where
  /-- The text has an odd number of bytes. -/
  | oddLength
  /-- The byte at this index is no digit. -/
  | badDigit (byte : UInt8) (index : Nat)
deriving DecidableEq, Repr

/-- Reads pairs of digits; `index` counts the bytes of text read before. -/
def hexBytes : List UInt8 → Nat → Except HexFault (List UInt8)
  | high :: low :: rest, index =>
    match hexValue? high, hexValue? low with
    | some h, some l => (hexBytes rest (index + 2)).map (UInt8.ofNat (16 * h + l) :: ·)
    | none, _ => .error (.badDigit high index)
    | some _, none => .error (.badDigit low (index + 1))
  | _, _ => .ok []

/-- The byte string that a text spells. The length is checked before the digits. -/
def ofHex (text : String) : Except HexFault ByteArray :=
  let bytes := text.toUTF8.data.toList
  if bytes.length % 2 = 1 then .error .oddLength
  else (hexBytes bytes 0).map fun bs => ⟨bs.toArray⟩

example : hexBytes [0x30, 0x61, 0x46, 0x66] 0 = .ok [0x0a, 0xff] := rfl
example : hexBytes [0x30, 0x61, 0x7a, 0x66] 0 = .error (.badDigit 0x7a 2) := rfl

end DocumentClient.Bytes
