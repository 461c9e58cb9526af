import DocumentClient.Wire.Reader.Value
import DocumentClient.Wire.Writer.Value

/-!
# Coordinates

A point is an array of exactly two doubles: easting and northing in a projection, or longitude and
latitude on the globe. The two look alike on the wire, so coordinates of either sort have no form
of their own.
-/

namespace DocumentClient

/-- A point of a projected plane; doubles are bits. -/
structure ProjectedCoordinates where
  easting : UInt64
  northing : UInt64
deriving DecidableEq, Repr

/-- A point of the globe; doubles are bits. -/
structure GeographicCoordinates where
  longitude : UInt64
  latitude : UInt64
deriving DecidableEq, Repr

inductive Coordinates where
  | projected (point : ProjectedCoordinates)
  | geographic (point : GeographicCoordinates)
deriving DecidableEq, Repr

namespace Read

/-- One of the two doubles of a point. -/
def ordinate (what : String) : Read UInt64 := do
  match ← readType with
  | none => throw (.malformed (.pairSize what))
  | some _ => double

/-- An array of exactly two doubles. -/
def pair (what : String) : Read (UInt64 × UInt64) := do
  startArray
  let first ← ordinate what
  let second ← ordinate what
  match ← readType with
  | some _ => throw (.malformed (.pairSize what))
  | none =>
    endArray
    return (first, second)

/-- A point of a projected plane. -/
def projected : Read ProjectedCoordinates := do
  let (easting, northing) ← pair "Projected2DCoordinates"
  return ⟨easting, northing⟩

/-- A point of the globe. -/
def geographic : Read GeographicCoordinates := do
  let (longitude, latitude) ← pair "Geographic2DCoordinates"
  return ⟨longitude, latitude⟩

end Read

namespace Write

def pair (first second : UInt64) : Write Unit :=
  arrayOf do
    double first
    double second

/-- A point of a projected plane. -/
def projected (point : ProjectedCoordinates) : Write Unit :=
  pair point.easting point.northing

/-- A point of the globe. -/
def geographic (point : GeographicCoordinates) : Write Unit :=
  pair point.longitude point.latitude

end Write

end DocumentClient
