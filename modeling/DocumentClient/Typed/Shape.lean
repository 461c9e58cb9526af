import DocumentClient.Geo.Coordinates
import DocumentClient.Geo.Crs

/-!
# Shapes of typed values

A shape names a type whose values are read from documents and written into them. `Shape.Carrier` is
that type.
-/

namespace DocumentClient

inductive FieldShape where
  | text
  | int32
  | boolean
deriving DecidableEq, Repr

abbrev FieldShape.Carrier : FieldShape → Type
  | text => String
  | int32 => Int32
  | boolean => Bool

/-- The type of a record: a name and the fields in order. -/
structure Schema where
  typeName : String
  fields : List (String × FieldShape)
deriving DecidableEq, Repr

/-- The values of fields, one after another. -/
abbrev FieldShape.Row : List (String × FieldShape) → Type
  | [] => Unit
  | (_, shape) :: rest => shape.Carrier × Row rest

/-- The types of values that can be read and written. -/
inductive Shape where
  | uint8
  | uint16
  | uint32
  | int32
  | int64
  | double
  | boolean
  | text
  | document
  | value
  | projected
  | geographic
  | coordinates
  | linkedCrs
  | namedCrs
  | crs
  | record (schema : Schema)
  | nullable (shape : Shape)
deriving DecidableEq, Repr

/-- The values of a shape; a double is its bits. -/
abbrev Shape.Carrier : Shape → Type
  | uint8 => UInt8
  | uint16 => UInt16
  | uint32 => UInt32
  | int32 => Int32
  | int64 => Int64
  | double => UInt64
  | boolean => Bool
  | text => String
  | document => Document
  | value => Value
  | projected => ProjectedCoordinates
  | geographic => GeographicCoordinates
  | coordinates => Coordinates
  | linkedCrs => LinkedCrs
  | namedCrs => NamedCrs
  | crs => Crs
  | record schema => FieldShape.Row schema.fields
  | nullable shape => Option shape.Carrier

/-- The name of a type, as messages show it. -/
def Shape.typeName : Shape → String
  | uint8 => "u8"
  | uint16 => "u16"
  | uint32 => "u32"
  | int32 => "i32"
  | int64 => "i64"
  | double => "f64"
  | boolean => "bool"
  | text => "alloc::string::String"
  | document => "docwire_bson::document::Document"
  | value => "docwire_bson::value::BsonValue"
  | projected => "docwire_bson::serializer::geo::Projected2DCoordinates"
  | geographic => "docwire_bson::serializer::geo::Geographic2DCoordinates"
  | coordinates => "docwire_bson::serializer::geo::Coordinates"
  | linkedCrs => "docwire_bson::serializer::geo::LinkedCrs"
  | namedCrs => "docwire_bson::serializer::geo::NamedCrs"
  | crs => "docwire_bson::serializer::geo::CoordinateReferenceSystem"
  | record schema => schema.typeName
  | nullable shape => "core::option::Option<" ++ shape.typeName ++ ">"

end DocumentClient
