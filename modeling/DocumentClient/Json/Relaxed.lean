import DocumentClient.Document.Value
import DocumentClient.Json.Text
import DocumentClient.Number.Decimal128
import DocumentClient.Text.Base64

/-!
# Documents as extended JSON

Values that JSON knows are written as such; every other value is an object whose one member, or first
member, has a name that starts with a dollar sign and tells the kind. The relaxed form writes whole
numbers and finite doubles as JSON numbers and dates as texts, so a reader may not get back the
very kind that was written.
-/

namespace DocumentClient

/-- Doubles in JSON: positional from five places behind the point to sixteen before it, always with a
fraction; a half goes to the even digit. What JSON has no number for is a word. -/
def jsonDouble : Number.DoubleText where
  layout :=
    { positional := fun e => decide (-5 ≤ e ∧ e ≤ 15), keepsPlace := true, mark := 'e' }
  tie := .even
  nan := fun negative => if negative then "-NaN" else "NaN"
  infinite := fun negative => if negative then "-Infinity" else "Infinity"

/-- Dates from 1970 to the year 9999 are written as texts. -/
def Instant.isTextual (t : Instant) : Bool :=
  0 ≤ t.millis.toInt ∧ t.millis.toInt ≤ 253402300799999

namespace JsonTree

/-- An object with one member. -/
def single (name : String) (v : JsonTree) : JsonTree := object [(name, v)]

def ofDouble (bits : UInt64) : JsonTree :=
  let shown := jsonDouble.write bits
  match Number.reading bits with
  | .finite .. => numeral shown
  | _ => single "$numberDouble" (string shown)

def ofInstant (t : Instant) : JsonTree :=
  single "$date" <|
    if t.isTextual then string t.shortText
    else single "$numberLong" (string (toString t.millis.toInt))

def ofBinary (data : Binary) : JsonTree :=
  single "$binary" (object
    [("base64", string (Text.base64 data.bytes)),
      ("subType", string (String.ofList (Bytes.hexPair data.subtype.toByte)))])

/-- A pattern; its options are sorted. -/
def ofPattern (pattern options : String) : JsonTree :=
  single "$regularExpression" (object
    [("pattern", string pattern),
      ("options", string (String.ofList (options.toList.mergeSort fun a b => decide (a ≤ b))))])

def ofTimestamp (t : Timestamp) : JsonTree :=
  single "$timestamp" (object [("t", integer t.time.toNat), ("i", integer t.increment.toNat)])

def ofObjectId (id : ObjectId) : JsonTree :=
  single "$oid" (string id.text)

def ofDbPointer (collection : String) (id : ObjectId) : JsonTree :=
  single "$dbPointer" (object [("$ref", string collection), ("$id", ofObjectId id)])

mutual

def ofValue : Value → JsonTree
  | .double bits => ofDouble bits
  | .string s => string s
  | .document fields => object (ofFields fields)
  | .array items => array (ofItems items)
  | .binary data => ofBinary data
  | .undefined => single "$undefined" (boolean true)
  | .objectId id => ofObjectId id
  | .boolean b => boolean b
  | .dateTime t => ofInstant t
  | .null => null
  | .regularExpression pattern options => ofPattern pattern options
  | .dbPointer collection id => ofDbPointer collection id
  | .javaScript code => single "$code" (string code)
  | .symbol s => single "$symbol" (string s)
  | .javaScriptWithScope code scope =>
    object [("$code", string code), ("$scope", object (ofFields scope))]
  | .int32 n => integer n.toInt
  | .timestamp t => ofTimestamp t
  | .int64 n => integer n.toInt
  | .decimal128 bytes => single "$numberDecimal" (string (Number.Decimal128.ofBytes bytes).text)
  | .minKey => single "$minKey" (integer 1)
  | .maxKey => single "$maxKey" (integer 1)

/-- The members of an object, one a field. -/
def ofFields : List (String × Value) → List (String × JsonTree)
  | [] => []
  | (name, v) :: rest => (name, ofValue v) :: ofFields rest

def ofItems : List Value → List JsonTree
  | [] => []
  | v :: rest => ofValue v :: ofItems rest

end

end JsonTree

/-- The relaxed extended JSON text of a document. -/
def Document.relaxedJson (doc : Document) : String :=
  (JsonTree.object (JsonTree.ofFields doc.fields)).text

end DocumentClient
