import DocumentClient.Document.Kind
import DocumentClient.Document.ObjectId
import DocumentClient.Number.Binary64
import DocumentClient.Calendar

/-!
# Values and documents

A document is a list of named values in a fixed order; values nest. Names are unique in every
document that the operations of this library build (`Value.NamesUnique`), but nothing stops a caller
from building another one.

* `Value.kind` is the kind of a value, and the `as…?` functions look inside one kind each.
* `Value.nesting` counts containers as a reader meets them: documents, arrays and scopes.
* `Value.SubtypesCanonical` leaves out the binary subtypes that no reader produces.
-/

namespace DocumentClient

structure Binary where
  subtype : BinarySubtype
  bytes : ByteArray
deriving DecidableEq

/-- A time in seconds with a counter for the operations within it. -/
structure Timestamp where
  time : UInt32
  increment : UInt32
deriving DecidableEq, Repr

inductive Value where
  /-- A double, as its bits. -/
  | double (bits : UInt64)
  | string (text : String)
  | document (fields : List (String × Value))
  | array (items : List Value)
  | binary (data : Binary)
  | undefined
  | objectId (id : ObjectId)
  | boolean (b : Bool)
  | dateTime (instant : Instant)
  | null
  | regularExpression (pattern options : String)
  | dbPointer (collection : String) (id : ObjectId)
  | javaScript (code : String)
  | symbol (text : String)
  /-- Code with a document of the names that it uses. -/
  | javaScriptWithScope (code : String) (scope : List (String × Value))
  | int32 (n : Int32)
  | timestamp (t : Timestamp)
  | int64 (n : Int64)
  | decimal128 (bytes : Vector UInt8 16)
  | minKey
  | maxKey
deriving Inhabited

/-- A document: named values in order. -/
structure Document where
  fields : List (String × Value)
deriving Inhabited

namespace Timestamp

/-- The time in the upper half of a long word, the increment in the lower. -/
def ofUInt64 (raw : UInt64) : Timestamp :=
  ⟨UInt32.ofNat (raw.toNat / 2 ^ 32), UInt32.ofNat raw.toNat⟩

/-- Both halves in one long word. -/
def toUInt64 (t : Timestamp) : UInt64 :=
  UInt64.ofNat (t.time.toNat * 2 ^ 32 + t.increment.toNat)

theorem ofUInt64_toUInt64 (t : Timestamp) : ofUInt64 t.toUInt64 = t := by
  obtain ⟨time, increment⟩ := t
  have time_lt : time.toNat < 2 ^ 32 := time.toNat_lt
  have increment_lt : increment.toNat < 2 ^ 32 := increment.toNat_lt
  have total : (time.toNat * 2 ^ 32 + increment.toNat) % 2 ^ 64
      = time.toNat * 2 ^ 32 + increment.toNat := by omega
  simp only [ofUInt64, toUInt64, UInt64.toNat_ofNat', total, mk.injEq]
  constructor <;> apply UInt32.toNat_inj.1 <;> rw [UInt32.toNat_ofNat'] <;> omega

/-- Times are compared first, then increments. -/
instance : Ord Timestamp where
  compare a b := (compare a.time b.time).then (compare a.increment b.increment)

end Timestamp

namespace Value

def kind : Value → Kind
  | double _ => .double
  | string _ => .string
  | document _ => .document
  | array _ => .array
  | binary _ => .binary
  | undefined => .undefined
  | objectId _ => .objectId
  | boolean _ => .boolean
  | dateTime _ => .dateTime
  | null => .null
  | regularExpression _ _ => .regularExpression
  | dbPointer _ _ => .dbPointer
  | javaScript _ => .javaScript
  | symbol _ => .symbol
  | javaScriptWithScope _ _ => .javaScriptWithScope
  | int32 _ => .int32
  | timestamp _ => .timestamp
  | int64 _ => .int64
  | decimal128 _ => .decimal128
  | minKey => .minKey
  | maxKey => .maxKey

/-! ## Looking inside a value -/

def isNull : Value → Bool
  | null => true
  | _ => false

def asBoolean? : Value → Option Bool
  | boolean b => some b
  | _ => none

def asInt32? : Value → Option Int32
  | int32 n => some n
  | _ => none

/-- The signed long word, if the value is one or a signed word. -/
def asInt64? : Value → Option Int64
  | int32 n => some n.toInt64
  | int64 n => some n
  | _ => none

def asDouble? : Value → Option UInt64
  | double bits => some bits
  | _ => none

def asString? : Value → Option String
  | string text => some text
  | _ => none

def asDocument? : Value → Option Document
  | document fields => some ⟨fields⟩
  | _ => none

def asArray? : Value → Option (List Value)
  | array items => some items
  | _ => none

def asObjectId? : Value → Option ObjectId
  | objectId id => some id
  | _ => none

/-! ## Nesting -/

mutual

/-- The levels of containers in a value. -/
def nesting : Value → Nat
  | document fields => 1 + fieldsNesting fields
  | array items => 1 + itemsNesting items
  | javaScriptWithScope _ scope => 1 + fieldsNesting scope
  | _ => 0

/-- The levels of containers below a list of fields. -/
def fieldsNesting : List (String × Value) → Nat
  | [] => 0
  | (_, v) :: rest => max v.nesting (fieldsNesting rest)

/-- The levels of containers below a list of items. -/
def itemsNesting : List Value → Nat
  | [] => 0
  | v :: rest => max v.nesting (itemsNesting rest)

end

/-! ## Unique names -/

mutual

/-- Every document in the value, at any depth, has unique names. -/
def NamesUnique : Value → Prop
  | document fields => (fields.map Prod.fst).Nodup ∧ FieldsNamesUnique fields
  | array items => ItemsNamesUnique items
  | javaScriptWithScope _ scope => (scope.map Prod.fst).Nodup ∧ FieldsNamesUnique scope
  | _ => True

/-- Every document below a list of fields has unique names. -/
def FieldsNamesUnique : List (String × Value) → Prop
  | [] => True
  | (_, v) :: rest => v.NamesUnique ∧ FieldsNamesUnique rest

/-- Every document below a list of items has unique names. -/
def ItemsNamesUnique : List Value → Prop
  | [] => True
  | v :: rest => v.NamesUnique ∧ ItemsNamesUnique rest

end

/-! ## Canonical subtypes -/

mutual

/-- Every binary value in the value, at any depth, has a subtype that some byte announces. -/
def SubtypesCanonical : Value → Prop
  | document fields => FieldsSubtypesCanonical fields
  | array items => ItemsSubtypesCanonical items
  | binary data => data.subtype.IsCanonical
  | javaScriptWithScope _ scope => FieldsSubtypesCanonical scope
  | _ => True

/-- Every binary value below a list of fields has a subtype that some byte announces. -/
def FieldsSubtypesCanonical : List (String × Value) → Prop
  | [] => True
  | (_, v) :: rest => v.SubtypesCanonical ∧ FieldsSubtypesCanonical rest

/-- Every binary value below a list of items has a subtype that some byte announces. -/
def ItemsSubtypesCanonical : List Value → Prop
  | [] => True
  | v :: rest => v.SubtypesCanonical ∧ ItemsSubtypesCanonical rest

end

end Value

/-- The levels of containers in a document, itself included. -/
def Document.nesting (doc : Document) : Nat :=
  (Value.document doc.fields).nesting

/-- Names are unique in the document and in every document inside it. -/
def Document.NamesUnique (doc : Document) : Prop :=
  (Value.document doc.fields).NamesUnique

/-- Every binary value in the document has a subtype that some byte announces. -/
def Document.SubtypesCanonical (doc : Document) : Prop :=
  (Value.document doc.fields).SubtypesCanonical

end DocumentClient
