import DocumentClient.Wire.Writer.Value

/-!
# Writing into one buffer

A `Writer` keeps the bytes of each open container by itself. In memory there is one buffer for all of them,
and bytes are added at its end only. A container begins with four zeros in place of its length. The writer
remembers where they lie, and when the container ends, its length is written over them. Code with a scope is
written in the same way.

* `BufferWriter`: the buffer, and the open containers by where they begin.
* `BufferWrite.patchLength`: the one step that goes back into the buffer.

A failure keeps what was written, here too.
-/

namespace DocumentClient

/-- An open container in a buffer. -/
structure Context where
  /-- Where its length lies. -/
  start : Nat
  /-- The name of the next item; none in a document. -/
  nextIndex : Option Nat := none
deriving DecidableEq

structure BufferWriter where
  buffer : ByteArray := .empty
  /-- The open containers, innermost first. -/
  contexts : List Context := []
  phase : WritePhase := .initial
  /-- The name of the value that comes next. -/
  pendingName : Option String := none
deriving DecidableEq

abbrev BufferWrite := EStateM Fault BufferWriter

namespace BufferWriter

/-- A writer that goes on after what a buffer holds. -/
def ofBytes (buffer : ByteArray) : BufferWriter :=
  { buffer := buffer }

def isDone (w : BufferWriter) : Bool :=
  w.phase = .done

def inArray (w : BufferWriter) : Bool :=
  match w.contexts with
  | [] => false
  | context :: _ => context.nextIndex.isSome

/-- The whole buffer, once a document is finished. -/
def finish (w : BufferWriter) : Except Fault ByteArray :=
  if w.phase ≠ .done then .error (.misuse (.unfinished w.phase)) else .ok w.buffer

end BufferWriter

namespace BufferWrite

/-! ## Parts of values -/

def put (bytes : ByteArray) : BufferWrite Unit :=
  modify fun w => { w with buffer := w.buffer ++ bytes }

def putByte (b : UInt8) : BufferWrite Unit :=
  modify fun w => { w with buffer := w.buffer.push b }

/-- A length that is not too large. -/
def putLength (n : Nat) : BufferWrite Unit := do
  if maxDocumentSize < n then throw .documentTooLarge
  put (Bytes.numeral 4 n)

/-- A text behind its length, with a zero byte at its end. -/
def putText (text : String) : BufferWrite Unit := do
  putLength (text.utf8ByteSize + 1)
  put text.toUTF8
  putByte 0

/-- A text that ends at its first zero byte, and so must hold none. -/
def putZeroEnded (text : String) : BufferWrite Unit := do
  if text.contains '\x00' then throw (.malformed (.zeroInText text))
  put text.toUTF8
  putByte 0

/-- Writes the number of bytes from a place to the end over the four bytes at this place. -/
def patchLength (start : Nat) : BufferWrite Unit := do
  let w ← get
  let size := w.buffer.size - start
  if maxDocumentSize < size then throw .documentTooLarge
  set { w with buffer := (Bytes.numeral 4 size).copySlice 0 w.buffer start 4 }

/-! ## Elements and containers -/

def name (text : String) : BufferWrite Unit := do
  let w ← get
  if w.phase ≠ .name then throw (.misuse (.write .name w.phase))
  if w.inArray then throw (.misuse .nameInArray)
  if text.contains '\x00' then throw (.malformed (.zeroInName text))
  set { w with pendingName := some text, phase := .value }

/-- The name of a value: the pending one, which is used up, or the index of an item. -/
def takeName (kind : Kind) : BufferWrite String := do
  let w ← get
  match w.phase, w.contexts with
  | .value, _ =>
    match w.pendingName with
    | none => throw (.misuse .noPendingName)
    | some text =>
      set { w with pendingName := none }
      return text
  | .name, ⟨start, some index⟩ :: outer =>
    set { w with contexts := ⟨start, some (index + 1)⟩ :: outer }
    return toString index
  | phase, _ => throw (.misuse (.writeValue kind phase))

/-- Writes tag and name of a value. -/
def beginValue (kind : Kind) : BufferWrite Unit := do
  let name ← takeName kind
  putByte kind.tag
  put name.toUTF8
  putByte 0

def endValue : BufferWrite Unit :=
  modify fun w => { w with phase := .name }

/-- Enters a container, whose length is not known yet. -/
def openContainer (nextIndex : Option Nat) : BufferWrite Unit := do
  let w ← get
  if maxNesting ≤ w.contexts.length then throw .nestingTooDeep
  put lengthPlaceholder
  modify fun v => { v with contexts := ⟨w.buffer.size, nextIndex⟩ :: v.contexts, phase := .name }

/-- Enters a document, which may be the outermost one. -/
def startDocument : BufferWrite Unit := do
  if (← get).phase ≠ .initial then beginValue .document
  openContainer none

def startArray : BufferWrite Unit := do
  beginValue .array
  openContainer (some 0)

/-- Leaves the innermost container. Its bytes stay if it has become too large. -/
def closeContainer : BufferWrite Unit := do
  let w ← get
  match w.contexts with
  | [] => throw (.misuse .noOpenContainer)
  | context :: outer =>
    set { w with contexts := outer }
    putByte 0
    patchLength context.start
    modify fun v => { v with phase := if outer.isEmpty then .done else .name }

def endDocument : BufferWrite Unit := do
  let w ← get
  if w.phase ≠ .name ∨ w.inArray then throw (.misuse (.write .endDocument w.phase))
  closeContainer

def endArray : BufferWrite Unit := do
  let w ← get
  if w.phase ≠ .name ∨ ¬ w.inArray then throw (.misuse (.write .endArray w.phase))
  closeContainer

/-! ## Values -/

/-- A value whose bytes are written by `body`. -/
def element (kind : Kind) (body : BufferWrite Unit) : BufferWrite Unit := do
  beginValue kind
  body
  endValue

def double (bits : UInt64) : BufferWrite Unit := element .double (put (Bytes.ofUInt64 bits))

def string (text : String) : BufferWrite Unit := element .string (putText text)

def javaScript (code : String) : BufferWrite Unit := element .javaScript (putText code)

def symbol (text : String) : BufferWrite Unit := element .symbol (putText text)

/-- Binary data. The old subtype repeats its length inside the value. -/
def binary (data : Binary) : BufferWrite Unit := element .binary do
  if data.subtype = .binaryOld then
    putLength (data.bytes.size + 4)
    putByte data.subtype.toByte
    putLength data.bytes.size
  else
    putLength data.bytes.size
    putByte data.subtype.toByte
  put data.bytes

def undefined : BufferWrite Unit := element .undefined (pure ())

def null : BufferWrite Unit := element .null (pure ())

def minKey : BufferWrite Unit := element .minKey (pure ())

def maxKey : BufferWrite Unit := element .maxKey (pure ())

def objectId (id : ObjectId) : BufferWrite Unit := element .objectId (put id.toBytes)

def boolean (b : Bool) : BufferWrite Unit := element .boolean (putByte (if b then 1 else 0))

def dateTime (t : Instant) : BufferWrite Unit := element .dateTime (put (Bytes.ofInt64 t.millis))

def regularExpression (pattern options : String) : BufferWrite Unit :=
  element .regularExpression do
    putZeroEnded pattern
    putZeroEnded options

def dbPointer (collection : String) (id : ObjectId) : BufferWrite Unit := element .dbPointer do
  putText collection
  put id.toBytes

def int32 (n : Int32) : BufferWrite Unit := element .int32 (put (Bytes.ofInt32 n))

def timestamp (t : Timestamp) : BufferWrite Unit :=
  element .timestamp (put (Bytes.ofUInt64 t.toUInt64))

def int64 (n : Int64) : BufferWrite Unit := element .int64 (put (Bytes.ofInt64 n))

def decimal128 (bytes : Vector UInt8 16) : BufferWrite Unit :=
  element .decimal128 (put (Bytes.ofVector bytes))

/-- A document whose fields are written by `fields`. -/
def documentOf (fields : BufferWrite Unit) : BufferWrite Unit := do
  startDocument
  fields
  endDocument

/-- An array whose items are written by `items`. -/
def arrayOf (items : BufferWrite Unit) : BufferWrite Unit := do
  startArray
  items
  endArray

/-- The bytes that a writer with a buffer of its own makes of a document. -/
def alone (document : BufferWrite Unit) : Except Fault ByteArray :=
  match document {} with
  | .ok _ w => w.finish
  | .error fault _ => .error fault

def putAlone (document : BufferWrite Unit) : BufferWrite Unit :=
  match alone document with
  | .ok bytes => put bytes
  | .error fault => throw fault

/-- Code with a scope that is written by `scope`. -/
def scopedCodeOf (code : String) (scope : BufferWrite Unit) : BufferWrite Unit :=
  element .javaScriptWithScope do
    let start := (← get).buffer.size
    put lengthPlaceholder
    putText code
    putAlone scope
    patchLength start

mutual

def value : Value → BufferWrite Unit
  | .double bits => double bits
  | .string text => string text
  | .document doc => documentOf (fields doc)
  | .array values => arrayOf (items values)
  | .binary data => binary data
  | .undefined => undefined
  | .objectId id => objectId id
  | .boolean b => boolean b
  | .dateTime t => dateTime t
  | .null => null
  | .regularExpression pattern options => regularExpression pattern options
  | .dbPointer collection id => dbPointer collection id
  | .javaScript code => javaScript code
  | .symbol text => symbol text
  | .javaScriptWithScope code scope => scopedCodeOf code (documentOf (fields scope))
  | .int32 n => int32 n
  | .timestamp t => timestamp t
  | .int64 n => int64 n
  | .decimal128 bytes => decimal128 bytes
  | .minKey => minKey
  | .maxKey => maxKey

def fields : List (String × Value) → BufferWrite Unit
  | [] => pure ()
  | (text, v) :: rest => do
    name text
    value v
    fields rest

def items : List Value → BufferWrite Unit
  | [] => pure ()
  | v :: rest => do
    value v
    items rest

end

/-- A document, as the whole or as a value. -/
def document (doc : Document) : BufferWrite Unit := documentOf (fields doc.fields)

end BufferWrite

end DocumentClient
