import DocumentClient.Wire.Writer.Basic

/-!
# Writing values

One function for each kind of value, and `value` for any. The scope of code is written by a writer of
its own, whose containers are counted from zero.
-/

namespace DocumentClient

namespace Write

/-! ## Scalars -/

def scalar (kind : Kind) (part : Except Fault ByteArray) : Write Unit := do
  beginValue kind
  putPart part
  endValue

def double (bits : UInt64) : Write Unit := scalar .double (.ok (Bytes.ofUInt64 bits))

def string (text : String) : Write Unit := scalar .string (textBytes text)

def javaScript (code : String) : Write Unit := scalar .javaScript (textBytes code)

def symbol (text : String) : Write Unit := scalar .symbol (textBytes text)

/-- Binary data. The old subtype repeats its length inside the value. -/
def binary (data : Binary) : Write Unit := do
  beginValue .binary
  if data.subtype = .binaryOld then
    putPart (lengthBytes (data.bytes.size + 4))
    put (ByteArray.empty.push data.subtype.toByte)
    putPart (lengthBytes data.bytes.size)
  else
    putPart (lengthBytes data.bytes.size)
    put (ByteArray.empty.push data.subtype.toByte)
  put data.bytes
  endValue

def undefined : Write Unit := scalar .undefined (.ok .empty)

def null : Write Unit := scalar .null (.ok .empty)

def minKey : Write Unit := scalar .minKey (.ok .empty)

def maxKey : Write Unit := scalar .maxKey (.ok .empty)

def objectId (id : ObjectId) : Write Unit := scalar .objectId (.ok id.toBytes)

def boolean (b : Bool) : Write Unit :=
  scalar .boolean (.ok (ByteArray.empty.push (if b then 1 else 0)))

def dateTime (t : Instant) : Write Unit := scalar .dateTime (.ok (Bytes.ofInt64 t.millis))

def regularExpression (pattern options : String) : Write Unit := do
  beginValue .regularExpression
  putPart (zeroEndedBytes pattern)
  putPart (zeroEndedBytes options)
  endValue

def dbPointer (collection : String) (id : ObjectId) : Write Unit := do
  beginValue .dbPointer
  putPart (textBytes collection)
  put id.toBytes
  endValue

def int32 (n : Int32) : Write Unit := scalar .int32 (.ok (Bytes.ofInt32 n))

def timestamp (t : Timestamp) : Write Unit := scalar .timestamp (.ok (Bytes.ofUInt64 t.toUInt64))

def int64 (n : Int64) : Write Unit := scalar .int64 (.ok (Bytes.ofInt64 n))

def decimal128 (bytes : Vector UInt8 16) : Write Unit :=
  scalar .decimal128 (.ok (Bytes.ofVector bytes))

/-! ## Containers -/

/-- A document whose fields are written by `fields`. -/
def documentOf (fields : Write Unit) : Write Unit := do
  startDocument
  fields
  endDocument

/-- An array whose items are written by `items`. -/
def arrayOf (items : Write Unit) : Write Unit := do
  startArray
  items
  endArray

/-- The bytes that a writer of its own makes of a document. -/
def alone (document : Write Unit) : Except Fault ByteArray :=
  match document {} with
  | .ok _ w => w.finish
  | .error fault _ => .error fault

/-- Code with a scope that is written by `scope`. What was written before a failure stays, with zeros
in place of the length. -/
def scopedCodeOf (code : String) (scope : Write Unit) : Write Unit := do
  beginValue .javaScriptWithScope
  match textBytes code with
  | .error fault =>
    put lengthPlaceholder
    throw fault
  | .ok text =>
    match alone scope with
    | .error fault =>
      put (lengthPlaceholder ++ text)
      throw fault
    | .ok bytes =>
      match lengthBytes (4 + text.size + bytes.size) with
      | .error fault =>
        put (lengthPlaceholder ++ text ++ bytes)
        throw fault
      | .ok length =>
        put (length ++ text ++ bytes)
        endValue

mutual

def value : Value → Write Unit
  | .double bits => double bits
  | .string text => string text
  | .document doc => documentOf (fields doc)
  | .array values => arrayOf (items values)
  | .binary data => binary data
  | .undefined => undefined
  | .objectId id => objectId id
  | .boolean b => boolean b
  | .dateTime t => dateTime t
  | .null => null
  | .regularExpression pattern options => regularExpression pattern options
  | .dbPointer collection id => dbPointer collection id
  | .javaScript code => javaScript code
  | .symbol text => symbol text
  | .javaScriptWithScope code scope => scopedCodeOf code (documentOf (fields scope))
  | .int32 n => int32 n
  | .timestamp t => timestamp t
  | .int64 n => int64 n
  | .decimal128 bytes => decimal128 bytes
  | .minKey => minKey
  | .maxKey => maxKey

def fields : List (String × Value) → Write Unit
  | [] => pure ()
  | (text, v) :: rest => do
    name text
    value v
    fields rest

def items : List Value → Write Unit
  | [] => pure ()
  | v :: rest => do
    value v
    items rest

end

/-- A document, as the whole or as a value. -/
def document (doc : Document) : Write Unit := documentOf (fields doc.fields)

end Write

end DocumentClient
