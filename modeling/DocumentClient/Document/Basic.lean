import DocumentClient.Document.Value

/-!
# Documents as ordered maps

A document maps names to values and remembers the order in which names first came. Putting a value
under a name that is there keeps the place of the name.

* `insert` and `insertIfAbsent` differ only in which value of a repeated name they keep.
* `names_insert`: putting a value adds a name at the end or no name at all.
* `path?` follows a dotted path through documents and arrays.
-/

namespace DocumentClient

namespace Document

/-! ## Building -/

def empty : Document := ⟨[]⟩

def names (doc : Document) : List String :=
  doc.fields.map Prod.fst

def values (doc : Document) : List Value :=
  doc.fields.map Prod.snd

def size (doc : Document) : Nat :=
  doc.fields.length

def isEmpty (doc : Document) : Bool :=
  doc.fields.isEmpty

def get? (doc : Document) (name : String) : Option Value :=
  doc.fields.lookup name

def contains (doc : Document) (name : String) : Bool :=
  (doc.get? name).isSome

/-- Puts `value` in place of the value under `name`, or at the end. -/
def insertField (name : String) (value : Value) : List (String × Value) → List (String × Value)
  | [] => [(name, value)]
  | (k, v) :: rest =>
    if k = name then (k, value) :: rest else (k, v) :: insertField name value rest

/-- The document with `value` under `name`. -/
def insert (doc : Document) (name : String) (value : Value) : Document :=
  ⟨insertField name value doc.fields⟩

/-- The document with `value` under `name` if the name was not there. -/
def insertIfAbsent (doc : Document) (name : String) (value : Value) : Document :=
  if doc.contains name then doc else ⟨doc.fields ++ [(name, value)]⟩

/-- The document with `value` under `name` if the name was there. -/
def replace (doc : Document) (name : String) (value : Value) : Document :=
  if doc.contains name then doc.insert name value else doc

/-- The document without a name; the others keep their order. -/
def erase (doc : Document) (name : String) : Document :=
  ⟨doc.fields.filter fun field => field.1 ≠ name⟩

/-- Puts one field after another. -/
def extend (doc : Document) (fields : List (String × Value)) : Document :=
  fields.foldl (fun d field => d.insert field.1 field.2) doc

/-- The document of a list of fields: names in the order in which they first come, each with its
last value. -/
def ofList (fields : List (String × Value)) : Document :=
  empty.extend fields

def merge (doc other : Document) : Document :=
  doc.extend other.fields

theorem names_insertField (name : String) (value : Value) (fields : List (String × Value)) :
    (insertField name value fields).map Prod.fst =
      if name ∈ fields.map Prod.fst then fields.map Prod.fst else fields.map Prod.fst ++ [name] := by
  induction fields with
  | nil => simp [insertField]
  | cons field rest ih =>
    obtain ⟨k, v⟩ := field
    by_cases same : k = name
    · simp [insertField, same]
    · have other : name ≠ k := fun h => same h.symm
      simp only [insertField, same, if_false, List.map_cons, ih, List.mem_cons, other, false_or]
      split <;> simp

theorem names_insert (doc : Document) (name : String) (value : Value) :
    (doc.insert name value).names =
      if name ∈ doc.names then doc.names else doc.names ++ [name] :=
  names_insertField name value doc.fields

/-! ## Typed look-up -/

def getString? (doc : Document) (name : String) : Option String :=
  (doc.get? name).bind Value.asString?

def getInt32? (doc : Document) (name : String) : Option Int32 :=
  (doc.get? name).bind Value.asInt32?

/-- The signed long word under a name, which may be stored as a signed word. -/
def getInt64? (doc : Document) (name : String) : Option Int64 :=
  (doc.get? name).bind Value.asInt64?

def getDouble? (doc : Document) (name : String) : Option UInt64 :=
  (doc.get? name).bind Value.asDouble?

def getBoolean? (doc : Document) (name : String) : Option Bool :=
  (doc.get? name).bind Value.asBoolean?

def getArray? (doc : Document) (name : String) : Option (List Value) :=
  (doc.get? name).bind Value.asArray?

def getDocument? (doc : Document) (name : String) : Option Document :=
  (doc.get? name).bind Value.asDocument?

/-! ## Paths -/

/-- The number that a run of decimal digits spells. -/
def digitsNumber? (cs : List Char) : Option Nat :=
  if cs.isEmpty then none
  else cs.foldl (fun n c => n.bind fun n =>
    if '0' ≤ c ∧ c ≤ '9' then some (n * 10 + (c.toNat - 0x30)) else none) (some 0)

/-- The index that a part of a path spells: digits, after a plus sign if one is there, below
`2 ^ 64`. -/
def index? (part : String) : Option Nat :=
  let cs := match part.toList with
    | '+' :: rest => rest
    | cs => cs
  (digitsNumber? cs).filter (· < 2 ^ 64)

/-- One step into a value: a field of a document or an item of an array. -/
def stepInto? (value : Value) (part : String) : Option Value :=
  match value with
  | .document fields => fields.lookup part
  | .array items => (index? part).bind fun i => items[i]?
  | _ => none

/-- The value at the end of a dotted path. -/
def path? (doc : Document) (path : String) : Option Value :=
  (path.splitOn ".").foldl (fun value part => value.bind fun v => stepInto? v part)
    (some (.document doc.fields))

end Document

/-- A binary value without a special meaning. -/
def Binary.ofBytes (bytes : ByteArray) : Binary := ⟨.generic, bytes⟩

def Document.toValue (doc : Document) : Value := .document doc.fields

end DocumentClient
