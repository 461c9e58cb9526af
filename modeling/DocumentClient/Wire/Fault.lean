import DocumentClient.Bytes.Hex
import DocumentClient.Document.Kind
import DocumentClient.Number.Conversion
import DocumentClient.Text.Quoted
import DocumentClient.Text.Utf8
import DocumentClient.Wire.Phase

/-!
# Faults of reading and writing

A fault is a cause; `Fault.message` puts it into words.

* `Malformed`: the bytes, or the names and texts to be written, break the format.
* `Unrepresentable`: a value has no form of the wanted kind, or would change in it.
* `Misuse`: an operation was called where it has no meaning.
-/

namespace DocumentClient

/-- Why a text is no unsigned word. -/
inductive WordTextFault where
  | empty
  | badDigit
  | tooLarge
deriving DecidableEq, Repr

def WordTextFault.message : WordTextFault → String
  | empty => "cannot parse integer from empty string"
  | badDigit => "invalid digit found in string"
  | tooLarge => "number too large to fit in target type"

/-- The two kinds of coordinate reference systems. -/
inductive CrsKind where
  /-- A link to a definition. -/
  | linked
  /-- The name of a definition. -/
  | named
deriving DecidableEq, Repr

/-- The text that tells the kind on the wire. -/
def CrsKind.discriminator : CrsKind → String
  | linked => "link"
  | named => "name"

/-- The name of a kind, as messages show it. -/
def CrsKind.name : CrsKind → String
  | linked => "linked"
  | named => "named"

/-- Why a document is not a record of a type. -/
inductive RecordFault where
  | missing (field : String)
  /-- A field holds something else than it should. -/
  | wrongType (found expected : String)
  /-- A field holds a number that is too large or too small. -/
  | outOfRange (n : Int64) (expected : String)
deriving DecidableEq, Repr

def RecordFault.message : RecordFault → String
  | missing field => "missing field `" ++ field ++ "`"
  | wrongType found expected => "invalid type: " ++ found ++ ", expected " ++ expected
  | outOfRange n expected =>
    "invalid value: integer `" ++ toString n.toInt ++ "`, expected " ++ expected

/-- Bytes, names or texts that break the format. -/
inductive Malformed where
  /-- A terminator lies elsewhere than the length of its container says. -/
  | terminator (offset stop : Nat)
  | tag (byte : UInt8) (offset : Nat)
  /-- The value has another kind than the one asked for. -/
  | wrongKind (expected : Kind) (name : String) (found : Kind)
  | boolean (byte : UInt8)
  /-- The inner length of an old binary value is not the outer one less four. -/
  | innerLength (inner outer : Nat)
  /-- Code with scope takes another number of bytes than it declares. -/
  | scopeLength (declared actual : Nat)
  /-- A container declares more bytes than there are. -/
  | containerLength (kind : Kind) (offset declared remaining : Nat)
  /-- A value ends beyond its container. -/
  | overrun (offset : Nat)
  /-- A length is negative or too small. -/
  | length (raw : Int32)
  /-- A name or a pattern has no end. -/
  | openText
  /-- A text does not end with a zero byte. -/
  | missingTerminator
  | trailing (count : Nat)
  | documentLength (raw : Int32)
  | zeroInName (name : String)
  /-- A text that ends at its first zero byte holds one. -/
  | zeroInText (text : String)
  /-- A typed value ends before its document does. -/
  | notConsumed (offset size : Nat)
  /-- Binary data for a byte has another size. -/
  | byteSize
  | byteText (text : String)
  | wordText (text : String) (cause : WordTextFault)
  /-- A pair of coordinates has another number of items. -/
  | pairSize (what : String)
  | crsKind (expected : CrsKind) (found : String)
  /-- A reference system holds a field that it does not know. -/
  | crsField (kind : CrsKind) (name : String)
  /-- The properties of a reference system hold a field that they do not know. -/
  | crsProperty (kind : CrsKind) (name : String)
  | crsUntyped (kind : CrsKind)
  /-- A reference system lacks its one required property. -/
  | crsIncomplete (kind : CrsKind)
  /-- A reference system of either kind does not tell which. -/
  | crsMissing
  /-- A reference system tells a kind that is none. -/
  | crsUnknown (found : String)
  /-- A document is not a record of a type. -/
  | record (typeName : String) (cause : RecordFault)
deriving DecidableEq, Repr

/-- Values without a form of the wanted kind. -/
inductive Unrepresentable where
  | conversion (fault : Number.ConversionFault)
  | dataLoss (found : Kind)
  /-- Values of the type have no form of this kind. -/
  | form (kind : Kind) (what : String)
  /-- No value of the type is read from this kind. -/
  | source (what : String) (found : Kind)
  /-- A value has no form as a document. -/
  | record
deriving DecidableEq, Repr

/-- The calls that have a meaning in some phases of a reader only. -/
inductive ReadCall where
  | currentKind
  | currentName
  | readType
  | endDocument
  | endArray
deriving DecidableEq, Repr

def ReadCall.label : ReadCall → String
  | currentKind => "current_bson_type"
  | currentName => "current_name"
  | readType => "read_bson_type"
  | endDocument => "read_end_document"
  | endArray => "read_end_array"

/-- The calls that have a meaning in some phases of a writer only. -/
inductive WriteCall where
  | name
  | endDocument
  | endArray
deriving DecidableEq, Repr

def WriteCall.label : WriteCall → String
  | name => "write_name"
  | endDocument => "write_end_document"
  | endArray => "write_end_array"

/-- Operations called where they have no meaning. -/
inductive Misuse where
  | read (call : ReadCall) (phase : ReadPhase)
  | readValue (kind : Kind) (phase : ReadPhase)
  | readStart (kind : Kind) (phase : ReadPhase)
  | noCurrentValue
  | notInside
  | skipOutside
  | write (call : WriteCall) (phase : WritePhase)
  | writeValue (kind : Kind) (phase : WritePhase)
  | nameInArray
  | noPendingName
  | noOpenContainer
  | unfinished (phase : WritePhase)
  | unregistered (type : String)
  /-- The instance that is kept for a type is one for another. -/
  | wrongInstance (type : String)
  /-- Coordinates are read and written by their concrete types only. -/
  | abstractCoordinates
deriving DecidableEq, Repr

inductive Fault where
  | malformed (cause : Malformed)
  | unrepresentable (cause : Unrepresentable)
  | misuse (cause : Misuse)
  | endOfInput
  | utf8 (fault : Text.Utf8Fault)
  | nestingTooDeep
  | documentTooLarge
deriving DecidableEq, Repr

/-! ## Words -/

def hexByte (b : UInt8) : String :=
  "0x" ++ String.ofList (Bytes.hexPair b)

def Malformed.message : Malformed → String
  | terminator offset stop =>
    s!"document terminator at offset {offset} but declared end is {stop}"
  | tag byte offset => "invalid element type " ++ hexByte byte ++ s!" at offset {offset}"
  | wrongKind expected name found =>
    "expected " ++ expected.name ++ " for element '" ++ name ++ "', found " ++ found.name
  | boolean byte => "invalid boolean byte " ++ hexByte byte
  | innerLength inner outer =>
    s!"old binary inner length {inner} does not match outer length {outer}"
  | scopeLength declared actual =>
    s!"code with scope declares {declared} bytes but contains {actual}"
  | containerLength kind offset declared remaining =>
    kind.name ++ s!" at offset {offset} declares {declared} bytes but only {remaining} remain"
  | overrun offset => s!"value at offset {offset} overruns its enclosing document"
  | length raw => "invalid length " ++ toString raw.toInt
  | openText => "unterminated cstring"
  | missingTerminator => "string is missing its null terminator"
  | trailing count => s!"{count} trailing bytes after document"
  | documentLength raw => "invalid document length " ++ toString raw.toInt
  | zeroInName name => "element name " ++ Text.quoted name ++ " contains a null byte"
  | zeroInText text => "cstring " ++ Text.quoted text ++ " contains a null byte"
  | notConsumed offset size =>
    s!"document not fully consumed: stopped at offset {offset} of {size}"
  | byteSize => "Binary data for Byte must be exactly one byte long"
  | byteText text => "'" ++ text ++ "' is not a valid hexadecimal Byte"
  | wordText text cause => "'" ++ text ++ "' is not a valid UInt32: " ++ cause.message
  | pairSize what => what ++ " must have exactly 2 values"
  | crsKind expected found =>
    "expected CRS type '" ++ expected.discriminator ++ "', found '" ++ found ++ "'"
  | crsField kind name => "unexpected element '" ++ name ++ "' in " ++ kind.discriminator ++ " CRS"
  | crsProperty kind name => "unexpected property '" ++ name ++ "' in " ++ kind.name ++ " CRS"
  | crsUntyped kind => kind.discriminator ++ " CRS is missing the type field"
  | crsIncomplete .linked => "linked CRS is missing href"
  | crsIncomplete .named => "named CRS is missing name"
  | crsMissing => "CoordinateReferenceSystem object is missing the type field"
  | crsUnknown found =>
    "The type field of the CoordinateReferenceSystem is not valid: '" ++ found ++ "'"
  | record typeName cause => "cannot deserialize " ++ typeName ++ ": " ++ cause.message

def Unrepresentable.message : Unrepresentable → String
  | conversion fault => fault.message
  | dataLoss found => "Data loss occurred when trying to convert from " ++ found.name ++ " to Byte"
  | form kind what => kind.name ++ " is not a valid representation for " ++ what
  | source what found => "Cannot deserialize " ++ what ++ " from BsonType " ++ found.name
  | record => "cannot serialize"

def Misuse.message : Misuse → String
  | read call phase => call.label ++ " called in state " ++ phase.label
  | readValue kind phase => "cannot read " ++ kind.name ++ " in state " ++ phase.label
  | readStart kind phase => "cannot start " ++ kind.name ++ " in state " ++ phase.label
  | noCurrentValue => "no current value"
  | notInside => "not inside a document"
  | skipOutside => "skip_value requires a current element"
  | write call phase => call.label ++ " called in state " ++ phase.label
  | writeValue kind phase => "cannot write " ++ kind.name ++ " in state " ++ phase.label
  | nameInArray => "array element names are generated by the writer"
  | noPendingName => "no element name pending"
  | noOpenContainer => "no open document"
  | unfinished phase => "top-level document not finished (state " ++ phase.label ++ ")"
  | unregistered type => "no serializer registered for " ++ type
  | wrongInstance type => "cached serializer has the wrong type for " ++ type
  | abstractCoordinates => "Only concrete subtypes of Coordinates can be serialized"

namespace Fault

/-- Whether the fault lies in the bytes or texts themselves, truncation and limits included. -/
def isFormat : Fault → Bool
  | unrepresentable _ | misuse _ => false
  | _ => true

/-- Whether a value had no form of the wanted kind. -/
def isRepresentation : Fault → Bool
  | unrepresentable _ => true
  | _ => false

def message : Fault → String
  | malformed cause => "Format error: " ++ cause.message
  | unrepresentable cause => "Representation error: " ++ cause.message
  | misuse cause => "Invalid usage: " ++ cause.message
  | endOfInput => "Unexpected end of input"
  | utf8 fault => "Invalid UTF-8: " ++ fault.message
  | nestingTooDeep => s!"Nesting too deep: max {maxNesting}"
  | documentTooLarge => s!"Document too large: max {maxDocumentSize} bytes"

end Fault

end DocumentClient
