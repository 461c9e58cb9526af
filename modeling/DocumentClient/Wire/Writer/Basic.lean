import DocumentClient.Bytes.Numeral
import DocumentClient.Document.Value
import DocumentClient.Wire.Fault

/-!
# Writing a document element by element

A writer collects the bytes of each open container by itself. When a container ends, its length is
known, and length, bytes and terminator go to the container around it. Items of an array are
named by the writer.

A call that fails keeps the bytes that it has already written and the phase that it has reached:
`Write` is a state monad whose errors carry the state along. A call that has no meaning in its phase
changes nothing.
-/

namespace DocumentClient

structure OpenContainer where
  /-- The bytes after the length. -/
  body : ByteArray := .empty
  /-- The name of the next item; none in a document. -/
  nextIndex : Option Nat := none
deriving DecidableEq

structure Writer where
  /-- The bytes outside every open container. -/
  base : ByteArray := .empty
  /-- The open containers, innermost first. -/
  containers : List OpenContainer := []
  phase : WritePhase := .initial
  /-- The name of the value that comes next. -/
  pendingName : Option String := none
deriving DecidableEq

/-- Writing may fail, and a failure keeps what was written. -/
abbrev Write := EStateM Fault Writer

namespace Writer

/-- A writer that goes on after some bytes. -/
def ofBytes (base : ByteArray) : Writer :=
  { base := base }

def isDone (w : Writer) : Bool :=
  w.phase = .done

def inArray (w : Writer) : Bool :=
  match w.containers with
  | [] => false
  | container :: _ => container.nextIndex.isSome

/-- The writer with bytes after the last one. -/
def append (w : Writer) (bytes : ByteArray) : Writer :=
  match w with
  | ⟨base, [], phase, name⟩ => ⟨base ++ bytes, [], phase, name⟩
  | ⟨base, ⟨body, index⟩ :: outer, phase, name⟩ => ⟨base, ⟨body ++ bytes, index⟩ :: outer, phase, name⟩

/-- The bytes of a finished document, with those before it. -/
def finish (w : Writer) : Except Fault ByteArray :=
  if w.phase ≠ .done then .error (.misuse (.unfinished w.phase)) else .ok w.base

end Writer

/-! ## Parts of values -/

/-- A length that is not too large. -/
def lengthBytes (n : Nat) : Except Fault ByteArray :=
  if maxDocumentSize < n then .error .documentTooLarge else .ok (Bytes.numeral 4 n)

/-- A text behind its length, with a zero byte at its end. -/
def textBytes (text : String) : Except Fault ByteArray := do
  let size ← lengthBytes (text.utf8ByteSize + 1)
  return (size ++ text.toUTF8).push 0

/-- A text that ends at its first zero byte, and so must hold none. -/
def zeroEndedBytes (text : String) : Except Fault ByteArray :=
  if text.contains '\x00' then .error (.malformed (.zeroInText text)) else .ok (text.toUTF8.push 0)

/-- The zeros that stand for a length until it is known. -/
def lengthPlaceholder : ByteArray := Bytes.numeral 4 0

namespace Write

def put (bytes : ByteArray) : Write Unit :=
  modify (·.append bytes)

/-- Adds the bytes of a part, if it has any. -/
def putPart (part : Except Fault ByteArray) : Write Unit :=
  match part with
  | .ok bytes => put bytes
  | .error fault => throw fault

/-! ## Elements and containers -/

def name (text : String) : Write Unit := do
  let w ← get
  if w.phase ≠ .name then throw (.misuse (.write .name w.phase))
  if w.inArray then throw (.misuse .nameInArray)
  if text.contains '\x00' then throw (.malformed (.zeroInName text))
  set { w with pendingName := some text, phase := .value }

/-- Writes tag and name of a value. The name is the pending one; an item of an array is named by
its index. -/
def beginValue (kind : Kind) : Write Unit := do
  let w ← get
  match w.phase, w.containers with
  | .value, _ =>
    match w.pendingName with
    | none => throw (.misuse .noPendingName)
    | some text =>
      set { w with pendingName := none }
      put ((ByteArray.empty.push kind.tag ++ text.toUTF8).push 0)
  | .name, ⟨body, some index⟩ :: outer =>
    set { w with containers := ⟨body, some (index + 1)⟩ :: outer }
    put ((ByteArray.empty.push kind.tag ++ (toString index).toUTF8).push 0)
  | phase, _ => throw (.misuse (.writeValue kind phase))

/-- Leaves the value that has been written. -/
def endValue : Write Unit :=
  modify fun w => { w with phase := .name }

def openContainer (nextIndex : Option Nat) : Write Unit := do
  let w ← get
  if maxNesting ≤ w.containers.length then throw .nestingTooDeep
  set { w with containers := ⟨.empty, nextIndex⟩ :: w.containers, phase := .name }

/-- Enters a document, which may be the outermost one. -/
def startDocument : Write Unit := do
  if (← get).phase ≠ .initial then beginValue .document
  openContainer none

def startArray : Write Unit := do
  beginValue .array
  openContainer (some 0)

/-- Leaves the innermost container. A container that has become too large is given up: its bytes
stay, with zeros in place of the length. -/
def closeContainer : Write Unit := do
  let w ← get
  match w.containers with
  | [] => throw (.misuse .noOpenContainer)
  | ⟨body, _⟩ :: outer =>
    set { w with containers := outer }
    let size := body.size + minDocumentSize
    match lengthBytes size with
    | .error fault =>
      put ((lengthPlaceholder ++ body).push 0)
      throw fault
    | .ok length =>
      put ((length ++ body).push 0)
      modify fun w => { w with phase := if outer.isEmpty then .done else .name }

def endDocument : Write Unit := do
  let w ← get
  if w.phase ≠ .name ∨ w.inArray then throw (.misuse (.write .endDocument w.phase))
  closeContainer

def endArray : Write Unit := do
  let w ← get
  if w.phase ≠ .name ∨ ¬ w.inArray then throw (.misuse (.write .endArray w.phase))
  closeContainer

end Write

end DocumentClient
