import DocumentClient.Wire.Reader.Value
import DocumentClient.Wire.Writer.Value

/-!
# Coordinate reference systems

A reference system is given by a link to its definition or by name. Both are documents with a `type`
that tells which of the two it is and with `properties`:

* a linked system has an `href` and may have a `type`, which says how the definition is written;
* a named system has a `name`.

The order of the fields does not matter, further fields are refused, and of several fields of one name
the first counts. `Read.crsKind` looks ahead for the type, so that either kind can be read without
knowing which comes.
-/

namespace DocumentClient

/-- A reference system given by a link. -/
structure LinkedCrs where
  href : String
  /-- How the definition behind the link is written. -/
  format : Option String
deriving DecidableEq, Repr

/-- A reference system given by its name. -/
structure NamedCrs where
  name : String
deriving DecidableEq, Repr

inductive Crs where
  | linked (crs : LinkedCrs)
  | named (crs : NamedCrs)
deriving DecidableEq, Repr

/-- The kind that a type tells. -/
def CrsKind.ofDiscriminator? (text : String) : Option CrsKind :=
  [linked, named].find? fun kind => kind.discriminator = text

@[simp] theorem CrsKind.ofDiscriminator?_discriminator (kind : CrsKind) :
    ofDiscriminator? kind.discriminator = some kind := by
  cases kind <;> decide

/-- The fields of a reference system as far as they have been read. -/
structure CrsFields (properties : Type) where
  typed : Bool := false
  /-- Whether `properties` has been met. -/
  closed : Bool := false
  properties : properties

namespace Read

/-- Reads one text that counts once only: a second one is passed over. -/
def firstText (seen : Option String) : Read (Option String) :=
  match seen with
  | some text => do
    skipValue
    return some text
  | none => some <$> string

def crsField {π : Type} (kind : CrsKind) (property : π → String → Read π) (fields : CrsFields π)
    (name : String) : Read (CrsFields π) := do
  if name = "type" then
    if fields.typed then
      skipValue
      return fields
    else
      let found ← string
      if found ≠ kind.discriminator then throw (.malformed (.crsKind kind found))
      return { fields with typed := true }
  else if name = "properties" then
    if fields.closed then
      skipValue
      return fields
    else
      startDocument
      let properties ← foldElements property fields.properties
      endDocument
      return { fields with closed := true, properties := properties }
  else throw (.malformed (.crsField kind name))

/-- Reads a reference system of the given kind, property by property. -/
def crsOf {π : Type} (kind : CrsKind) (property : π → String → Read π) (start : π) : Read π := do
  startDocument
  let fields ← foldElements (crsField kind property) { properties := start }
  endDocument
  if ¬ fields.typed then throw (.malformed (.crsUntyped kind))
  return fields.properties

/-- The properties of a linked system as far as they have been read. -/
structure LinkedProperties where
  href : Option String := none
  format : Option String := none

def linkedProperty (properties : LinkedProperties) (name : String) : Read LinkedProperties := do
  if name = "href" then return { properties with href := ← firstText properties.href }
  else if name = "type" then return { properties with format := ← firstText properties.format }
  else throw (.malformed (.crsProperty .linked name))

def linkedCrs : Read LinkedCrs := do
  let properties ← crsOf .linked linkedProperty {}
  match properties.href with
  | some href => return ⟨href, properties.format⟩
  | none => throw (.malformed (.crsIncomplete .linked))

def namedProperty (found : Option String) (name : String) : Read (Option String) := do
  if name = "name" then firstText found
  else throw (.malformed (.crsProperty .named name))

def namedCrs : Read NamedCrs := do
  match ← crsOf .named namedProperty none with
  | some name => return ⟨name⟩
  | none => throw (.malformed (.crsIncomplete .named))

/-- The kind of the reference system that comes next; the reader comes back to where it was, unless
the kind cannot be told. -/
def crsKind : Read CrsKind := do
  let mark ← bookmark
  startDocument
  if ¬ (← findElement "type") then throw (.malformed .crsMissing)
  let found ← string
  returnTo mark
  match CrsKind.ofDiscriminator? found with
  | some kind => return kind
  | none => throw (.malformed (.crsUnknown found))

end Read

namespace Write

/-- A reference system of a kind with the properties that `properties` writes. -/
def crsOf (kind : CrsKind) (properties : Write Unit) : Write Unit :=
  documentOf do
    name "type"
    string kind.discriminator
    name "properties"
    documentOf properties

def linkedCrs (crs : LinkedCrs) : Write Unit :=
  crsOf .linked do
    name "href"
    string crs.href
    match crs.format with
    | none => pure ()
    | some format =>
      name "type"
      string format

def namedCrs (crs : NamedCrs) : Write Unit :=
  crsOf .named do
    name "name"
    string crs.name

end Write

end DocumentClient
