import DocumentClient.Bytes.Numeral
import DocumentClient.Document.Value
import DocumentClient.Wire.Phase
import Mathlib

/-!
# The grammar of the wire

What a byte string says, as rules that mention no reader and no writer. A length is a signed word
that is not negative; everything that has a length has exactly that many bytes.

* `IsLength`, `IsText` and `IsZeroEnded` are the parts that values are made of.
* `Scalar bytes v`: the bytes are the value `v`, which holds no other values.
* `Derives depth bytes v`: the bytes are the value `v` inside `depth` containers. Containers nest at
  most `maxNesting` deep; the scope of code counts as a container.
* `IsDocument bytes doc`: the bytes are the whole document `doc`.

A document may repeat a name on the wire. Its meaning keeps the first value of each name
(`firstOfEach`), but every value must be well-formed, those that are dropped too.
-/

namespace DocumentClient.Grammar

/-- The bytes of a text. -/
def utf8 (text : String) : List UInt8 :=
  text.toUTF8.data.toList

/-- Four bytes, lowest first, that are a signed word which is not negative. -/
structure IsLength (bytes : List UInt8) (n : Nat) : Prop where
  eq_digits : bytes = Bytes.digits 4 n
  nonneg : n < 2 ^ 31

/-- A length, which counts the zero byte at the end, then the text, then the zero byte. -/
inductive IsText : List UInt8 → String → Prop
  | mk {size : List UInt8} {text : String} :
      IsLength size ((utf8 text).length + 1) → IsText (size ++ utf8 text ++ [0]) text

/-- A text that ends at its first zero byte. -/
inductive IsZeroEnded : List UInt8 → String → Prop
  | mk {text : String} : 0 ∉ utf8 text → IsZeroEnded (utf8 text ++ [0]) text

/-! ## Values that hold no other values -/

/-- The form of a scalar.

* `binary`: length, subtype, bytes. Every byte but the one of the old subtype is a subtype of its own.
* `binaryOld`: the length counts an inner length, which lies behind the subtype.
* `timestamp`: the counter comes first, being the lower half of a long word. -/
inductive Scalar : List UInt8 → Value → Prop
  | double (bits : UInt64) : Scalar (Bytes.digits 8 bits.toNat) (.double bits)
  | string {bytes : List UInt8} {text : String} : IsText bytes text → Scalar bytes (.string text)
  | binary {size bytes : List UInt8} {subtype : UInt8} :
      subtype ≠ 2 → IsLength size bytes.length →
      Scalar (size ++ subtype :: bytes) (.binary ⟨.ofByte subtype, bytes.toByteArray⟩)
  | binaryOld {size inner bytes : List UInt8} :
      IsLength size (inner ++ bytes).length → IsLength inner bytes.length →
      Scalar (size ++ 2 :: (inner ++ bytes)) (.binary ⟨.binaryOld, bytes.toByteArray⟩)
  | undefined : Scalar [] .undefined
  | objectId (id : ObjectId) : Scalar id.bytes.toList (.objectId id)
  | boolean (b : Bool) : Scalar [if b then 1 else 0] (.boolean b)
  | dateTime (t : Instant) : Scalar (Bytes.digits 8 t.millis.toUInt64.toNat) (.dateTime t)
  | null : Scalar [] .null
  | regularExpression {left right : List UInt8} {pattern options : String} :
      IsZeroEnded left pattern → IsZeroEnded right options →
      Scalar (left ++ right) (.regularExpression pattern options)
  | dbPointer {bytes : List UInt8} {collection : String} (id : ObjectId) :
      IsText bytes collection → Scalar (bytes ++ id.bytes.toList) (.dbPointer collection id)
  | javaScript {bytes : List UInt8} {code : String} :
      IsText bytes code → Scalar bytes (.javaScript code)
  | symbol {bytes : List UInt8} {text : String} : IsText bytes text → Scalar bytes (.symbol text)
  | int32 (n : Int32) : Scalar (Bytes.digits 4 n.toUInt32.toNat) (.int32 n)
  | timestamp (t : Timestamp) :
      Scalar (Bytes.digits 4 t.increment.toNat ++ Bytes.digits 4 t.time.toNat) (.timestamp t)
  | int64 (n : Int64) : Scalar (Bytes.digits 8 n.toUInt64.toNat) (.int64 n)
  | decimal128 (bytes : Vector UInt8 16) : Scalar bytes.toList (.decimal128 bytes)
  | minKey : Scalar [] .minKey
  | maxKey : Scalar [] .maxKey

/-! ## Containers -/

/-- What comes before the payload of an element: the tag of the kind, the name, a zero byte. -/
def header (kind : Kind) (name : String) : List UInt8 :=
  kind.tag :: (utf8 name ++ [0])

/-- A named value with the bytes that it has behind its name. -/
structure Element where
  name : String
  payload : List UInt8
  value : Value

namespace Element

/-- The element on the wire. -/
def bytes (e : Element) : List UInt8 :=
  header e.value.kind e.name ++ e.payload

/-- What the element says. -/
def field (e : Element) : String × Value :=
  (e.name, e.value)

end Element

/-- What lies between the length of a container and its end: the elements and a zero byte. -/
def content (elements : List Element) : List UInt8 :=
  elements.flatMap Element.bytes ++ [0]

/-- Elements behind the length of the whole. -/
structure IsBlock (elements : List Element) (bytes : List UInt8) : Prop where
  layout : ∃ size, IsLength size bytes.length ∧ bytes = size ++ content elements
  least : minDocumentSize ≤ bytes.length
  most : bytes.length ≤ maxDocumentSize

/-- The fields without those whose name has come before. -/
def firstOfEach : List (String × Value) → List (String × Value)
  | [] => []
  | field :: rest => field :: (firstOfEach rest).filter fun other => other.1 ≠ field.1

/-- The form of a value inside `depth` containers.

* `document` and `array` differ in what their elements mean: an array keeps every value and no name.
* `scopedCode`: a total length, the code, and the scope, which is a document at the depth of the code. -/
inductive Derives : Nat → List UInt8 → Value → Prop
  | scalar {depth : Nat} {bytes : List UInt8} {v : Value} : Scalar bytes v → Derives depth bytes v
  | document {depth : Nat} {bytes : List UInt8} {elements : List Element} :
      depth < maxNesting → IsBlock elements bytes → (∀ e ∈ elements, 0 ∉ utf8 e.name) →
      (∀ e ∈ elements, Derives (depth + 1) e.payload e.value) →
      Derives depth bytes (.document (firstOfEach (elements.map Element.field)))
  | array {depth : Nat} {bytes : List UInt8} {elements : List Element} :
      depth < maxNesting → IsBlock elements bytes → (∀ e ∈ elements, 0 ∉ utf8 e.name) →
      (∀ e ∈ elements, Derives (depth + 1) e.payload e.value) →
      Derives depth bytes (.array (elements.map Element.value))
  | scopedCode {depth : Nat} {size text block : List UInt8} {code : String}
      {scope : List (String × Value)} :
      IsLength size (size ++ text ++ block).length → IsText text code →
      Derives depth block (.document scope) →
      Derives depth (size ++ text ++ block) (.javaScriptWithScope code scope)

/-- The form of a whole document. -/
def IsDocument (bytes : List UInt8) (doc : Document) : Prop :=
  Derives 0 bytes (.document doc.fields)

end DocumentClient.Grammar
