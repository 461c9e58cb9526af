import DocumentClient.Number.Conversion
import DocumentClient.Typed.Shape
import DocumentClient.Typed.Unsigned

/-!
# Codecs and their registry

A codec is a way to read and write the values of a shape. A registry knows one codec a shape and
builds it when it is first asked for; afterwards it answers with the codec that it has built.

* `Registrations` are collected first: of two codecs for one shape the later counts.
* `Registry.lookup` answers with an instance, whose number tells it from every other one.
-/

namespace DocumentClient

/-- The ways to read and write the values of a shape. -/
inductive Codec : Shape → Type where
  | uint8 (form : ByteForm) : Codec .uint8
  | uint32 (form : WordForm) (policy : Number.Conversion) : Codec .uint32
  | int32 : Codec .int32
  /-- A word in the place of a record: no document holds one, and none is written. -/
  | int32Record : Codec .int32
  | int64 : Codec .int64
  | double : Codec .double
  | boolean : Codec .boolean
  | text : Codec .text
  | document : Codec .document
  | value : Codec .value
  | projected : Codec .projected
  | geographic : Codec .geographic
  /-- Refuses all coordinates, whose sort the wire does not tell. -/
  | coordinates : Codec .coordinates
  | linkedCrs : Codec .linkedCrs
  | namedCrs : Codec .namedCrs
  /-- Leaves either kind of reference system to its own codec. -/
  | crs : Codec .crs
  | record (schema : Schema) : Codec (.record schema)
  /-- Writes null for a missing value. -/
  | nullable {shape : Shape} (codec : Codec shape) : Codec (.nullable shape)
deriving DecidableEq, Repr

namespace Codec

/-- The codec of bytes that writes them as words. -/
def defaultUInt8 : Codec .uint8 := .uint8 .int32

/-- The codec of unsigned words that writes them as signed ones and refuses every loss. -/
def defaultUInt32 : Codec .uint32 := .uint32 .int32 .strict

end Codec

/-! ## Registrations -/

/-- Codecs by the shapes that they are registered for, the last one first. What a codec is for by its own
type is kept with it and not told by where it is found. -/
structure Registrations where
  codecs : List (Shape × Sigma Codec) := []

namespace Registrations

def register {shape : Shape} (r : Registrations) (codec : Codec shape) : Registrations :=
  ⟨(shape, ⟨shape, codec⟩) :: r.codecs⟩

/-- Registers a codec for its shape and one for missing values too. -/
def registerNullable {shape : Shape} (r : Registrations) (codec : Codec shape) : Registrations :=
  (r.register codec).register codec.nullable

/-- Registers a codec for every shape that has a natural one. -/
def registerDefaults (r : Registrations) : Registrations :=
  r |>.register Codec.defaultUInt8
    |>.register Codec.defaultUInt32
    |>.registerNullable Codec.int32
    |>.registerNullable Codec.int64
    |>.registerNullable Codec.double
    |>.registerNullable Codec.boolean
    |>.registerNullable Codec.text
    |>.registerNullable Codec.document
    |>.register Codec.value
    |>.registerNullable Codec.projected
    |>.registerNullable Codec.geographic
    |>.register Codec.coordinates
    |>.registerNullable Codec.crs
    |>.register Codec.linkedCrs
    |>.register Codec.namedCrs

/-- The codec that was registered last for a shape. -/
def find? (r : Registrations) (shape : Shape) : Option (Sigma Codec) :=
  r.codecs.lookup shape

end Registrations

/-! ## The registry -/

structure Instance (shape : Shape) where
  codec : Codec shape
  /-- The number of codecs that were built before. -/
  number : Nat
deriving DecidableEq

/-- Registered codecs, and those among them that have been built. -/
structure Registry where
  registrations : Registrations := {}
  /-- The instances built so far by the shapes that were asked for, the last one first. -/
  built : List (Shape × Sigma Instance) := []
  builds : Nat := 0

namespace Registry

/-- A registry with the registered codecs, none of which is built. -/
def ofRegistrations (r : Registrations) : Registry :=
  { registrations := r }

/-- The registry of the codecs that every shape has by itself. -/
def default : Registry :=
  .ofRegistrations (Registrations.registerDefaults {})

def isRegistered (r : Registry) (shape : Shape) : Bool :=
  (r.registrations.find? shape).isSome

/-- The number of shapes whose codec has been built. -/
def cachedCount (r : Registry) : Nat := r.built.length

def built? (r : Registry) (shape : Shape) : Option (Sigma Instance) :=
  r.built.lookup shape

/-- The registry that has built one more instance, and keeps it for a shape. -/
def keep (r : Registry) (shape : Shape) (made : Sigma Instance) : Registry :=
  { r with built := (shape, made) :: r.built, builds := r.builds + 1 }

/-- Answers with an instance, which has to be one for the shape. -/
def answer (shape : Shape) (found : Sigma Instance) : EStateM Fault Registry (Instance shape) := fun r =>
  if same : found.1 = shape then .ok (same ▸ found.2) r
  else .error (.misuse (.wrongInstance shape.typeName)) r

/-- The codec of a shape: the one that is built, or the registered one, which is then built. -/
def lookup (shape : Shape) : EStateM Fault Registry (Instance shape) := fun r =>
  match r.built? shape with
  | some found => answer shape found r
  | none =>
    match r.registrations.find? shape with
    | none => .error (.misuse (.unregistered shape.typeName)) r
    | some ⟨own, codec⟩ =>
      let made : Sigma Instance := ⟨own, codec, r.builds⟩
      answer shape made (r.keep shape made)

end Registry

end DocumentClient
