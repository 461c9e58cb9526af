import DocumentClient.Wire.Reader.Basic

/-!
# Reading values

One function for each kind of value, and `value` for whatever comes next. A document keeps the
first of several values under one name; an array ignores the names of its items.

The recursion over nested values is bounded by a count of bytes: an element takes at least two
bytes, a container at least five, so the bytes of the input suffice.
-/

namespace DocumentClient

namespace Read

/-! ## Scalars -/

/-- A value of a fixed number of bytes. -/
def fixed {α : Type} (kind : Kind) (size : Nat) (decode : ByteArray → α) : Read α := do
  beginValue kind
  let bytes ← take size
  endValue
  return decode bytes

/-- A value that is told by its kind alone. -/
def unit (kind : Kind) : Read Unit := do
  beginValue kind
  endValue

/-- A text behind its length, as the value of a kind. -/
def textOf (kind : Kind) : Read String := do
  beginValue kind
  let s ← text
  endValue
  return s

def double : Read UInt64 := fixed .double 8 Bytes.toUInt64

def string : Read String := textOf .string

def javaScript : Read String := textOf .javaScript

def symbol : Read String := textOf .symbol

/-- Binary data. The old subtype repeats its length inside the value. -/
def binary : Read Binary := do
  beginValue .binary
  let outer ← length 0
  let subtype := BinarySubtype.ofByte (← byte)
  if subtype = .binaryOld then
    let inner ← length 0
    if inner + 4 ≠ outer then throw (.malformed (.innerLength inner outer))
    let bytes ← take inner
    endValue
    return ⟨subtype, bytes⟩
  else
    let bytes ← take outer
    endValue
    return ⟨subtype, bytes⟩

def undefined : Read Unit := unit .undefined

def null : Read Unit := unit .null

def minKey : Read Unit := unit .minKey

def maxKey : Read Unit := unit .maxKey

def objectId : Read ObjectId :=
  fixed .objectId 12 fun bytes => ⟨Bytes.toVector 12 bytes⟩

def boolean : Read Bool := do
  beginValue .boolean
  let b ← byte
  if b = 0 then
    endValue
    return false
  else if b = 1 then
    endValue
    return true
  else throw (.malformed (.boolean b))

def dateTime : Read Instant := fixed .dateTime 8 fun bytes => ⟨Bytes.toInt64 bytes⟩

def regularExpression : Read (String × String) := do
  beginValue .regularExpression
  let pattern ← zeroEnded
  let options ← zeroEnded
  endValue
  return (pattern, options)

def dbPointer : Read (String × ObjectId) := do
  beginValue .dbPointer
  let collection ← text
  let bytes ← take 12
  endValue
  return (collection, ⟨Bytes.toVector 12 bytes⟩)

def int32 : Read Int32 := fixed .int32 4 Bytes.toInt32

def timestamp : Read Timestamp :=
  fixed .timestamp 8 fun bytes => Timestamp.ofUInt64 (Bytes.toUInt64 bytes)

def int64 : Read Int64 := fixed .int64 8 Bytes.toInt64

def decimal128 : Read (Vector UInt8 16) := fixed .decimal128 16 (Bytes.toVector 16)

/-! ## Containers -/

/-- A document whose fields are read by `fields`. -/
def documentOf (fields : Document → Read Document) : Read Document := do
  startDocument
  let doc ← fields .empty
  endDocument
  return doc

/-- An array whose items are read by `items`. -/
def arrayOf (items : Array Value → Read (Array Value)) : Read (List Value) := do
  startArray
  let values ← items #[]
  endArray
  return values.toList

/-- Code with a scope whose fields are read by `fields`. The scope is read by itself, within the
bytes that it declares, at the depth of the code around it. -/
def scopedCodeOf (fields : Document → Read Document) : Read (String × Document) := do
  beginValue .javaScriptWithScope
  let start := (← get).pos
  let total ← length 4
  let code ← text
  let bytes ← take (← peekLength)
  let r ← get
  match documentOf fields { data := bytes, outerDepth := r.depth } with
  | .error fault _ => throw fault
  | .ok scope _ =>
    if r.pos - start ≠ total then throw (.malformed (.scopeLength total (r.pos - start)))
    endValue
    return (code, scope)

/-- The name of the current element, which is handed over. -/
def takeName : Read String := do
  let name := (← get).name
  modify fun r => { r with name := "" }
  return name

mutual

/-- A value of whatever kind comes next, nested at most `fuel` elements deep. -/
def valueWithin : Nat → Read Value
  | 0 => throw .endOfInput
  | fuel + 1 => do
    match ← currentKind with
    | .double => return .double (← double)
    | .string => return .string (← string)
    | .document => return .document (← documentOf (fieldsWithin fuel)).fields
    | .array => return .array (← arrayOf (itemsWithin fuel))
    | .binary => return .binary (← binary)
    | .undefined => undefined; return .undefined
    | .objectId => return .objectId (← objectId)
    | .boolean => return .boolean (← boolean)
    | .dateTime => return .dateTime (← dateTime)
    | .null => null; return .null
    | .regularExpression =>
      let (pattern, options) ← regularExpression
      return .regularExpression pattern options
    | .dbPointer =>
      let (collection, id) ← dbPointer
      return .dbPointer collection id
    | .javaScript => return .javaScript (← javaScript)
    | .symbol => return .symbol (← symbol)
    | .javaScriptWithScope =>
      let (code, scope) ← scopedCodeOf (fieldsWithin fuel)
      return .javaScriptWithScope code scope.fields
    | .int32 => return .int32 (← int32)
    | .timestamp => return .timestamp (← timestamp)
    | .int64 => return .int64 (← int64)
    | .decimal128 => return .decimal128 (← decimal128)
    | .minKey => minKey; return .minKey
    | .maxKey => maxKey; return .maxKey

/-- The fields up to the end of the document, after those in `doc`. -/
def fieldsWithin : Nat → Document → Read Document
  | 0, _ => throw .endOfInput
  | fuel + 1, doc => do
    match ← readType with
    | none => return doc
    | some _ =>
      let name ← takeName
      let v ← valueWithin fuel
      fieldsWithin fuel (doc.insertIfAbsent name v)

/-- The items up to the end of the array, after those in `items`. -/
def itemsWithin : Nat → Array Value → Read (Array Value)
  | 0, _ => throw .endOfInput
  | fuel + 1, items => do
    match ← readType with
    | none => return items
    | some _ =>
      let v ← valueWithin fuel
      itemsWithin fuel (items.push v)

end

/-- More elements than a reader can meet. -/
def fuelFor (r : Reader) : Nat := r.data.size + 1

def value : Read Value := fun r => valueWithin (fuelFor r) r

def document : Read Document := fun r => documentOf (fieldsWithin (fuelFor r)) r

def array : Read (List Value) := fun r => arrayOf (itemsWithin (fuelFor r)) r

def javaScriptWithScope : Read (String × Document) := fun r =>
  scopedCodeOf (fieldsWithin (fuelFor r)) r

end Read

end DocumentClient
