import DocumentClient.Typed.Record
import DocumentClient.Typed.Registry

/-!
# Reading and writing typed values

A codec reads and writes values of its shape at the place where a reader or a writer stands, and asks
the registry for the codecs of the parts that it does not handle itself.

* `Codec.decode` and `Codec.encode` handle one value anywhere in a document; `Codec.decodeAs` and
  `Codec.encodeAs` take the codec from the registry.
* `Codec.decodeDocument` and `Codec.encodeDocument` handle a value that is a whole document.
-/

namespace DocumentClient

/-- A reader or a writer together with a registry of codecs. -/
structure Coder (σ : Type) where
  place : σ
  registry : Registry

/-- Reading typed values; a failure keeps the place that was reached and the codecs built. -/
abbrev Decode := EStateM Fault (Coder Reader)

/-- Writing typed values; a failure keeps what was written and the codecs built. -/
abbrev Encode := EStateM Fault (Coder Writer)

namespace Coder

def atPlace {σ α : Type} (act : EStateM Fault σ α) : EStateM Fault (Coder σ) α := fun c =>
  match act c.place with
  | .ok a place => .ok a { c with place := place }
  | .error fault place => .error fault { c with place := place }

def atRegistry {σ α : Type} (act : EStateM Fault Registry α) : EStateM Fault (Coder σ) α := fun c =>
  match act c.registry with
  | .ok a registry => .ok a { c with registry := registry }
  | .error fault registry => .error fault { c with registry := registry }

def codec {σ : Type} (shape : Shape) : EStateM Fault (Coder σ) (Codec shape) := do
  return (← atRegistry (Registry.lookup shape)).codec

end Coder

open Coder

namespace Codec

/-- Reads a record from the next document. -/
def readRecord (schema : Schema) : Read (FieldShape.Row schema.fields) := do
  match schema.ofDocument (← Read.document) with
  | .ok row => return row
  | .error cause => throw (.malformed (.record schema.typeName cause))

/-- Reads a document and finds no word in it. -/
def readNoRecord : Read Int32 := do
  discard Read.document
  throw (.malformed (.record Shape.int32.typeName (.wrongType "map" FieldShape.int32.expected)))

/-- Reads a linked system with the one codec that there is. -/
def decodeLinked : Codec .linkedCrs → Read LinkedCrs
  | .linkedCrs => Read.linkedCrs

/-- Reads a named system with the one codec that there is. -/
def decodeNamed : Codec .namedCrs → Read NamedCrs
  | .namedCrs => Read.namedCrs

/-- Writes a linked system with the one codec that there is. -/
def encodeLinked : Codec .linkedCrs → LinkedCrs → Write Unit
  | .linkedCrs => Write.linkedCrs

/-- Writes a named system with the one codec that there is. -/
def encodeNamed : Codec .namedCrs → NamedCrs → Write Unit
  | .namedCrs => Write.namedCrs

/-- Reads a reference system: the type is looked up ahead, then the codec of the kind reads all. -/
def decodeCrs : Decode Crs := do
  match ← atPlace Read.crsKind with
  | .linked => return .linked (← atPlace (← codec .linkedCrs).decodeLinked)
  | .named => return .named (← atPlace (← codec .namedCrs).decodeNamed)

/-- Writes a reference system with the codec of its kind. -/
def encodeCrs : Crs → Encode Unit
  | .linked system => do atPlace ((← codec .linkedCrs).encodeLinked system)
  | .named system => do atPlace ((← codec .namedCrs).encodeNamed system)

def decode : {shape : Shape} → Codec shape → Decode shape.Carrier
  | _, .uint8 _ => atPlace Read.uint8
  | _, .uint32 _ policy => atPlace (Read.uint32 policy)
  | _, .int32 => atPlace Read.int32
  | _, .int32Record => atPlace readNoRecord
  | _, .int64 => atPlace Read.int64
  | _, .double => atPlace Read.double
  | _, .boolean => atPlace Read.boolean
  | _, .text => atPlace Read.string
  | _, .document => atPlace Read.document
  | _, .value => atPlace Read.value
  | _, .projected => atPlace Read.projected
  | _, .geographic => atPlace Read.geographic
  | _, .coordinates => throw (.misuse .abstractCoordinates)
  | _, .linkedCrs => atPlace Read.linkedCrs
  | _, .namedCrs => atPlace Read.namedCrs
  | _, .crs => decodeCrs
  | _, .record schema => atPlace (readRecord schema)
  | _, .nullable codec => do
    if (← atPlace Read.currentKind) = .null then
      atPlace Read.null
      return none
    else return some (← codec.decode)

def encode : {shape : Shape} → Codec shape → shape.Carrier → Encode Unit
  | _, .uint8 form, b => atPlace (Write.uint8 form b)
  | _, .uint32 form policy, n => atPlace (Write.uint32 form policy n)
  | _, .int32, n => atPlace (Write.int32 n)
  | _, .int32Record, _ => throw (.unrepresentable .record)
  | _, .int64, n => atPlace (Write.int64 n)
  | _, .double, bits => atPlace (Write.double bits)
  | _, .boolean, b => atPlace (Write.boolean b)
  | _, .text, s => atPlace (Write.string s)
  | _, .document, doc => atPlace (Write.document doc)
  | _, .value, v => atPlace (Write.value v)
  | _, .projected, point => atPlace (Write.projected point)
  | _, .geographic, point => atPlace (Write.geographic point)
  | _, .coordinates, _ => throw (.misuse .abstractCoordinates)
  | _, .linkedCrs, system => atPlace (Write.linkedCrs system)
  | _, .namedCrs, system => atPlace (Write.namedCrs system)
  | _, .crs, system => encodeCrs system
  | _, .record schema, row => atPlace (Write.document (schema.toDocument row))
  | _, .nullable codec, some a => codec.encode a
  | _, .nullable _, none => atPlace Write.null

/-! ## Values of a shape -/

/-- Reads a value of a shape with the codec that is registered for it. -/
def decodeAs (shape : Shape) : Decode shape.Carrier := do
  (← codec shape).decode

/-- Writes a value of a shape with the codec that is registered for it. -/
def encodeAs (shape : Shape) (a : shape.Carrier) : Encode Unit := do
  (← codec shape).encode a

/-! ## Whole documents -/

/-- The value that a byte string is as a whole. -/
def decodeDocument {shape : Shape} (codec : Codec shape) (data : ByteArray) :
    EStateM Fault Registry shape.Carrier := fun registry =>
  match codec.decode ⟨.ofBytes data, registry⟩ with
  | .error fault c => .error fault c.registry
  | .ok a ⟨r, registry⟩ =>
    if r.isDone ∧ r.pos = data.size then .ok a registry
    else .error (.malformed (.notConsumed r.pos data.size)) registry

/-- The bytes of a value that is written as a whole. -/
def encodeDocument {shape : Shape} (codec : Codec shape) (a : shape.Carrier) :
    EStateM Fault Registry ByteArray := fun registry =>
  match codec.encode a ⟨{}, registry⟩ with
  | .error fault c => .error fault c.registry
  | .ok _ ⟨w, registry⟩ =>
    match w.finish with
    | .error fault => .error fault registry
    | .ok bytes => .ok bytes registry

end Codec

end DocumentClient
