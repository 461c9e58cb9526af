/-!
# Kinds of values

Every element of a document carries a tag byte that says what kind of value follows. Binary values
carry a second byte, their subtype.

* `Kind.ofTag?_tag`: a tag tells its kind.
* `BinarySubtype.toByte_ofByte`: every byte is a subtype and is written back as it was read.
-/

namespace DocumentClient

inductive Kind where
  | double
  | string
  | document
  | array
  | binary
  | undefined
  | objectId
  | boolean
  | dateTime
  | null
  | regularExpression
  | dbPointer
  | javaScript
  | symbol
  | javaScriptWithScope
  | int32
  | timestamp
  | int64
  | decimal128
  | minKey
  | maxKey
deriving DecidableEq, Repr

namespace Kind

def tag : Kind → UInt8
  | double => 0x01
  | string => 0x02
  | document => 0x03
  | array => 0x04
  | binary => 0x05
  | undefined => 0x06
  | objectId => 0x07
  | boolean => 0x08
  | dateTime => 0x09
  | null => 0x0A
  | regularExpression => 0x0B
  | dbPointer => 0x0C
  | javaScript => 0x0D
  | symbol => 0x0E
  | javaScriptWithScope => 0x0F
  | int32 => 0x10
  | timestamp => 0x11
  | int64 => 0x12
  | decimal128 => 0x13
  | maxKey => 0x7F
  | minKey => 0xFF

/-- All kinds in the order of their declaration. -/
def all : List Kind :=
  [double, string, document, array, binary, undefined, objectId, boolean, dateTime, null,
    regularExpression, dbPointer, javaScript, symbol, javaScriptWithScope, int32, timestamp, int64,
    decimal128, minKey, maxKey]

def ofTag? (b : UInt8) : Option Kind :=
  all.find? fun kind => kind.tag = b

@[simp] theorem ofTag?_tag (kind : Kind) : ofTag? kind.tag = some kind := by
  cases kind <;> decide

theorem tag_ne_zero (kind : Kind) : kind.tag ≠ 0 := by
  cases kind <;> decide

/-- The size of the kinds whose values all have the same number of bytes. -/
def fixedSize? : Kind → Option Nat
  | double | dateTime | timestamp | int64 => some 8
  | int32 => some 4
  | objectId => some 12
  | boolean => some 1
  | decimal128 => some 16
  | undefined | null | minKey | maxKey => some 0
  | _ => none

/-- The name of a kind, as messages show it. -/
def name : Kind → String
  | double => "Double"
  | string => "String"
  | document => "Document"
  | array => "Array"
  | binary => "Binary"
  | undefined => "Undefined"
  | objectId => "ObjectId"
  | boolean => "Boolean"
  | dateTime => "DateTime"
  | null => "Null"
  | regularExpression => "RegularExpression"
  | dbPointer => "DbPointer"
  | javaScript => "JavaScript"
  | symbol => "Symbol"
  | javaScriptWithScope => "JavaScriptWithScope"
  | int32 => "Int32"
  | timestamp => "Timestamp"
  | int64 => "Int64"
  | decimal128 => "Decimal128"
  | minKey => "MinKey"
  | maxKey => "MaxKey"

end Kind

/-- The subtypes of binary values. A subtype that no reader produces, such as `reserved 2`, can
still be built and written. -/
inductive BinarySubtype where
  | generic
  | function
  /-- The old form, which repeats the length inside the value. -/
  | binaryOld
  | uuidOld
  | uuid
  | md5
  | encrypted
  | column
  | sensitive
  | userDefined (byte : UInt8)
  | reserved (byte : UInt8)
deriving DecidableEq, Repr

namespace BinarySubtype

/-- The subtype that a byte announces. -/
def ofByte (b : UInt8) : BinarySubtype :=
  if b = 0 then generic
  else if b = 1 then function
  else if b = 2 then binaryOld
  else if b = 3 then uuidOld
  else if b = 4 then uuid
  else if b = 5 then md5
  else if b = 6 then encrypted
  else if b = 7 then column
  else if b = 8 then sensitive
  else if 0x80 ≤ b then userDefined b
  else reserved b

def toByte : BinarySubtype → UInt8
  | generic => 0
  | function => 1
  | binaryOld => 2
  | uuidOld => 3
  | uuid => 4
  | md5 => 5
  | encrypted => 6
  | column => 7
  | sensitive => 8
  | userDefined b => b
  | reserved b => b

@[simp] theorem toByte_ofByte (b : UInt8) : (ofByte b).toByte = b := by
  unfold ofByte
  repeat' split
  all_goals simp_all [toByte]

/-- The subtypes that some byte announces. -/
def IsCanonical (subtype : BinarySubtype) : Prop :=
  ofByte subtype.toByte = subtype

instance (subtype : BinarySubtype) : Decidable subtype.IsCanonical :=
  inferInstanceAs (Decidable (_ = _))

/-- The name of a subtype, with its byte where the name does not tell it. -/
def name : BinarySubtype → String
  | generic => "Generic"
  | function => "Function"
  | binaryOld => "BinaryOld"
  | uuidOld => "UuidOld"
  | uuid => "Uuid"
  | md5 => "Md5"
  | encrypted => "Encrypted"
  | column => "Column"
  | sensitive => "Sensitive"
  | userDefined b => "UserDefined(" ++ toString b.toNat ++ ")"
  | reserved b => "Reserved(" ++ toString b.toNat ++ ")"

example : (reserved 2).IsCanonical ↔ False := by decide
example : (userDefined 200).IsCanonical := by decide

end BinarySubtype

end DocumentClient
