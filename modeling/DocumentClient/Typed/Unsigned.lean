import DocumentClient.Text.Blank
import DocumentClient.Wire.Reader.Value
import DocumentClient.Wire.Writer.Value

/-!
# Unsigned numbers

No kind of value is an unsigned byte or word, so each is written in one of several forms. Reading
accepts every form, whichever one is written.

* `ByteForm` and `WordForm` are the forms; `ofKind` refuses the kinds that are none.
* `wordOfText` is the number that a text spells, in decimal digits between blanks.
-/

namespace DocumentClient

inductive ByteForm where
  /-- Binary data of one byte. -/
  | binary
  | int32
  | int64
  | text
deriving DecidableEq, Repr

def ByteForm.kind : ByteForm → Kind
  | binary => .binary
  | int32 => .int32
  | int64 => .int64
  | text => .string

/-- The form of a byte in a kind of value. -/
def ByteForm.ofKind (kind : Kind) : Except Fault ByteForm :=
  match [binary, int32, int64, text].find? fun form => form.kind = kind with
  | some form => .ok form
  | none => .error (.unrepresentable (.form kind "Byte"))

@[simp] theorem ByteForm.ofKind_kind (form : ByteForm) : ofKind form.kind = .ok form := by
  cases form <;> rfl

inductive WordForm where
  | double
  | int32
  | int64
  | text
deriving DecidableEq, Repr

def WordForm.kind : WordForm → Kind
  | double => .double
  | int32 => .int32
  | int64 => .int64
  | text => .string

/-- The form of a word in a kind of value. -/
def WordForm.ofKind (kind : Kind) : Except Fault WordForm :=
  match [double, int32, int64, text].find? fun form => form.kind = kind with
  | some form => .ok form
  | none => .error (.unrepresentable (.form kind "UInt32"))

@[simp] theorem WordForm.ofKind_kind (form : WordForm) : ofKind form.kind = .ok form := by
  cases form <;> rfl

/-! ## Text forms -/

/-- Reads decimal digits after those that make `n`. At each character a digit that is none comes
before a number that is too large. -/
def wordDigits : Nat → List Char → Except WordTextFault Nat
  | n, [] => .ok n
  | n, c :: rest =>
    if '0' ≤ c ∧ c ≤ '9' then
      let next := n * 10 + (c.toNat - 0x30)
      if 2 ^ 32 ≤ next then .error .tooLarge else wordDigits next rest
    else .error .badDigit

/-- The number that decimal digits spell, after a plus sign if one is there. -/
def wordOfDigits (cs : List Char) : Except WordTextFault Nat :=
  match cs with
  | [] => .error .empty
  | ['+'] => .error .badDigit
  | '+' :: rest => wordDigits 0 rest
  | cs => wordDigits 0 cs

/-- The word that a text spells between blanks. -/
def wordOfText (text : String) : Except Fault UInt32 :=
  match wordOfDigits (Text.trimBlank text.toList) with
  | .ok n => .ok (UInt32.ofNat n)
  | .error cause => .error (.malformed (.wordText text cause))

/-- The byte that one or two hexadecimal digits spell. -/
def byteOfText (text : String) : Except Fault UInt8 :=
  match Bytes.ofHex (if text.utf8ByteSize = 1 then "0" ++ text else text) with
  | .ok ⟨#[b]⟩ => .ok b
  | _ => .error (.malformed (.byteText text))

namespace Read

/-- Goes on with a result, or fails with its fault. -/
def ofExcept {α : Type} (result : Except Fault α) : Read α :=
  peek fun _ => result

/-- The byte that a whole number is, if it is one. -/
def narrowByte (kind : Kind) (n : Int) : Except Fault UInt8 :=
  if 0 ≤ n ∧ n < 256 then .ok (UInt8.ofNat n.toNat) else .error (.unrepresentable (.dataLoss kind))

def uint8 : Read UInt8 := do
  match ← currentKind with
  | .binary =>
    match (← binary).bytes with
    | ⟨#[b]⟩ => return b
    | _ => throw (.malformed .byteSize)
  | .int32 => ofExcept (narrowByte .int32 (← int32).toInt)
  | .int64 => ofExcept (narrowByte .int64 (← int64).toInt)
  | .string => ofExcept (byteOfText (← string))
  | kind => throw (.unrepresentable (.source "Byte" kind))

def converted {α : Type} (result : Except Number.ConversionFault α) : Except Fault α :=
  result.mapError fun fault => .unrepresentable (.conversion fault)

/-- An unsigned word in any form; numbers that do not fit go by the policy. -/
def uint32 (policy : Number.Conversion) : Read UInt32 := do
  match ← currentKind with
  | .double => ofExcept (converted (policy.uint32OfDouble (← double)))
  | .int32 => ofExcept (converted (policy.uint32OfInt32 (← int32)))
  | .int64 => ofExcept (converted (policy.uint32OfInt64 (← int64)))
  | .string => ofExcept (wordOfText (← string))
  | kind => throw (.unrepresentable (.source "UInt32" kind))

end Read

namespace Write

def uint8 (form : ByteForm) (b : UInt8) : Write Unit :=
  match form with
  | .binary => binary (.ofBytes (ByteArray.empty.push b))
  | .int32 => int32 (Int32.ofInt b.toNat)
  | .int64 => int64 (Int64.ofInt b.toNat)
  | .text => string (String.ofList (Bytes.hexPair b))

/-- An unsigned word in the given form. A word that does not fit is refused before anything is
written. -/
def uint32 (form : WordForm) (policy : Number.Conversion) (n : UInt32) : Write Unit :=
  match form with
  | .double => double (Number.ofUInt32 n)
  | .int32 =>
    match policy.int32OfUInt32 n with
    | .ok m => int32 m
    | .error fault => throw (.unrepresentable (.conversion fault))
  | .int64 => int64 (Number.Conversion.int64OfUInt32 n)
  | .text => string (toString n.toNat)

end Write

example : wordOfDigits ['+', '4', '2'] = .ok 42 := rfl
example : wordOfDigits ['4', '2', '9', '4', '9', '6', '7', '2', '9', '6', 'x'] = .error .tooLarge := rfl
example : wordOfDigits ['-'] = .error .badDigit := rfl

end DocumentClient
