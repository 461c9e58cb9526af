import DocumentClient.Bytes.Numeral
import DocumentClient.Bytes.Hex
import DocumentClient.Text.Quoted

/-!
# Object identifiers

An identifier has twelve bytes; the first four are a time in seconds, highest byte first. Its text
is hexadecimal, and its order is that of its bytes.
-/

namespace DocumentClient

structure ObjectId where
  bytes : Vector UInt8 12
deriving DecidableEq, Repr

/-- Why a text is no identifier. -/
inductive ObjectIdFault where
  | notHex (fault : Bytes.HexFault)
  | wrongSize
deriving DecidableEq, Repr

namespace ObjectId

/-- The identifier with the given bytes, if there are twelve. -/
def ofBytes? (bs : ByteArray) : Option ObjectId :=
  if h : bs.data.size = 12 then some ⟨⟨bs.data, h⟩⟩ else none

def toBytes (id : ObjectId) : ByteArray :=
  Bytes.ofVector id.bytes

/-- The seconds that the first four bytes hold. -/
def seconds (id : ObjectId) : Nat :=
  Bytes.value (id.bytes.toList.take 4).reverse

def text (id : ObjectId) : String :=
  Bytes.toHex id.toBytes

/-- The identifier that a text spells. -/
def ofText (s : String) : Except ObjectIdFault ObjectId :=
  match Bytes.ofHex s with
  | .error fault => .error (.notHex fault)
  | .ok bs =>
    match ofBytes? bs with
    | some id => .ok id
    | none => .error .wrongSize

instance : Ord ObjectId where
  compare a b := compareLex (compareOn fun (id : ObjectId) => id.bytes.toList.map UInt8.toNat)
    (fun _ _ => .eq) a b

end ObjectId

/-- The fault in words; a digit that is none is shown as the character of its byte. -/
def ObjectIdFault.message : ObjectIdFault → String
  | notHex .oddLength => "Invalid ObjectId hex: Odd number of digits"
  | notHex (.badDigit byte index) =>
    "Invalid ObjectId hex: Invalid character " ++ Text.quotedChar (Char.ofNat byte.toNat) ++
      " at position " ++ toString index
  | wrongSize => "ObjectId must be 12 bytes"

end DocumentClient
