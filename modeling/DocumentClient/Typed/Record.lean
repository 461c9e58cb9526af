import DocumentClient.Typed.Shape

/-!
# Records

A record is a document with the fields of a schema. It is written with exactly these fields in their
order. It is read from any document that holds them, in whatever order and whatever else is there.

* `Schema.ofDocument` reads the fields in the order of the document; the first bad one is reported,
  and only if there is none, the first missing one.
-/

namespace DocumentClient

/-- What a value is, as messages about records tell it. The kinds that only documents know count as maps,
which is what they are in extended JSON. -/
def Value.plainName : Value → String
  | double bits =>
    let shown := Number.plainText.write bits
    "floating point `" ++ shown ++ (if shown.contains '.' then "`" else ".0`")
  | string s => "string " ++ Text.quoted s
  | array _ => "sequence"
  | binary ⟨.generic, _⟩ => "byte array"
  | boolean b => "boolean `" ++ toString b ++ "`"
  | null => "unit value"
  | int32 n => "integer `" ++ toString n.toInt ++ "`"
  | int64 n => "integer `" ++ toString n.toInt ++ "`"
  | _ => "map"

namespace FieldShape

/-- What a field should hold, as messages tell it. -/
def expected : FieldShape → String
  | text => "a string"
  | int32 => "i32"
  | boolean => "a boolean"

/-- The value of a field, if it has the right kind. A word may be stored as a long word. -/
def ofValue : (shape : FieldShape) → Value → Except RecordFault shape.Carrier
  | text, .string s => .ok s
  | int32, .int32 n => .ok n
  | int32, .int64 n =>
    if -2 ^ 31 ≤ n.toInt ∧ n.toInt < 2 ^ 31 then .ok (Int32.ofInt n.toInt)
    else .error (.outOfRange n (expected int32))
  | boolean, .boolean b => .ok b
  | shape, v => .error (.wrongType v.plainName shape.expected)

def toValue : (shape : FieldShape) → shape.Carrier → Value
  | text, s => .string s
  | int32, n => .int32 n
  | boolean, b => .boolean b

/-- The fields of a record that a document holds. -/
def rowOfDocument (doc : Document) : (fields : List (String × FieldShape)) →
    Except RecordFault (Row fields)
  | [] => .ok ()
  | (name, shape) :: rest => do
    match doc.get? name with
    | none => throw (.missing name)
    | some v => return (← shape.ofValue v, ← rowOfDocument doc rest)

def rowFields : (fields : List (String × FieldShape)) → Row fields → List (String × Value)
  | [], _ => []
  | (name, shape) :: rest, (a, row) => (name, shape.toValue a) :: rowFields rest row

end FieldShape

namespace Schema

/-- What is wrong with one field of a document, if it belongs to the record. -/
def fieldFault? (schema : Schema) (field : String × Value) : Option RecordFault :=
  match schema.fields.lookup field.1 with
  | none => none
  | some shape =>
    match shape.ofValue field.2 with
    | .ok _ => none
    | .error fault => some fault

/-- The record that a document holds. -/
def ofDocument (schema : Schema) (doc : Document) :
    Except RecordFault (FieldShape.Row schema.fields) :=
  match doc.fields.findSome? schema.fieldFault? with
  | some fault => .error fault
  | none => FieldShape.rowOfDocument doc schema.fields

def toDocument (schema : Schema) (row : FieldShape.Row schema.fields) : Document :=
  .ofList (FieldShape.rowFields schema.fields row)

end Schema

end DocumentClient
