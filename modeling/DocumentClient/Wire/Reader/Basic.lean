import DocumentClient.Bytes.Numeral
import DocumentClient.Document.Basic
import DocumentClient.Wire.Fault

/-!
# Reading a document element by element

A reader walks over a byte string once, from front to back. It knows the containers that are open,
and lets no value take bytes beyond the innermost one. A call that fails keeps what it has read
before it failed: `Read` is a state monad whose errors carry the state along.

A bookmark is the part of the state that moves; going back to one reads the same bytes again.

* `Reader.limit` is the end of the innermost container, `take` the only step that moves over a value.
* `readType` reads a tag and a name or a terminator, `startContainer` a length.
* `skipValue` and `findElement` pass over values without reading them.
* `foldElements` goes through the elements of a container with a step for each.
-/

namespace DocumentClient

/-- The containers that hold elements of their own. -/
inductive Container where
  | document
  | array
deriving DecidableEq, Repr

def Container.kind : Container → Kind
  | document => .document
  | array => .array

structure Frame where
  container : Container
  /-- The offset after its last byte. -/
  stop : Nat
deriving DecidableEq, Repr

/-- A place in a byte string, with all that is needed to go on from there. -/
structure Bookmark where
  pos : Nat := 0
  phase : ReadPhase := .initial
  kind : Option Kind := none
  name : String := ""
  /-- The open containers, innermost first. -/
  frames : List Frame := []
deriving DecidableEq, Repr

structure Reader extends Bookmark where
  data : ByteArray
  /-- The containers that lie around the whole byte string. -/
  outerDepth : Nat := 0

/-- Reading may fail, and a failure keeps the place that was reached. -/
abbrev Read := EStateM Fault Reader

namespace Reader

def ofBytes (data : ByteArray) : Reader :=
  { data := data }

/-- The number of containers around the next value. -/
def depth (r : Reader) : Nat :=
  r.outerDepth + r.frames.length

/-- The offset that no value may go beyond. -/
def limit (r : Reader) : Nat :=
  match r.frames with
  | [] => r.data.size
  | frame :: _ => frame.stop

def isDone (r : Reader) : Bool :=
  r.phase = .done

/-- The kind of the value that comes next; before the first byte that is a document. -/
def currentKind (r : Reader) : Except Fault Kind :=
  match r.phase with
  | .initial => .ok .document
  | .value =>
    match r.kind with
    | some kind => .ok kind
    | none => .error (.misuse .noCurrentValue)
  | phase => .error (.misuse (.read .currentKind phase))

def currentName (r : Reader) : Except Fault String :=
  match r.phase with
  | .value => .ok r.name
  | phase => .error (.misuse (.read .currentName phase))

/-- The reader at a bookmark that was taken from it. -/
def returnTo (r : Reader) (mark : Bookmark) : Reader :=
  { r with toBookmark := mark }

end Reader

namespace Read

/-- Looks at the reader without moving it. -/
def peek {α : Type} (look : Reader → Except Fault α) : Read α := fun r =>
  match look r with
  | .ok a => .ok a r
  | .error fault => .error fault r

/-! ## Bytes, lengths and texts -/

def take (n : Nat) : Read ByteArray := fun r =>
  let stop := r.pos + n
  if r.data.size < stop then .error .endOfInput r
  else if r.limit < stop then .error (.malformed (.overrun r.pos)) r
  else .ok (r.data.extract r.pos stop) { r with pos := stop }

def byte : Read UInt8 := do
  let bytes ← take 1
  return bytes.get! 0

/-- A length of at least `least`. -/
def length (least : Nat) : Read Nat := do
  let raw := Bytes.toInt32 (← take 4)
  if raw.toInt < least then throw (.malformed (.length raw))
  return raw.toInt.toNat

/-- The length that comes next, without moving. -/
def peekLength : Read Nat :=
  peek fun r =>
    if r.data.size < r.pos + 4 then .error .endOfInput
    else
      let raw := Bytes.toInt32 (r.data.extract r.pos (r.pos + 4))
      if raw.toInt < 0 then .error (.malformed (.length raw)) else .ok raw.toInt.toNat

/-- The offset of the first zero byte among the `count` bytes from `start` on. -/
def zeroFrom? (data : ByteArray) : Nat → Nat → Option Nat
  | 0, _ => none
  | count + 1, start =>
    if data.get! start = 0 then some start else zeroFrom? data count (start + 1)

/-- A text that ends at the first zero byte. -/
def zeroEnded : Read String := fun r =>
  let stop := min r.limit r.data.size
  if stop < r.pos then .error .endOfInput r
  else
    match zeroFrom? r.data (stop - r.pos) r.pos with
    | none => .error (.malformed .openText) r
    | some found =>
      match Text.decodeUtf8 (r.data.extract r.pos found) with
      | .ok text => .ok text { r with pos := found + 1 }
      | .error fault => .error (.utf8 fault) r

/-- A text behind its length, which counts the zero byte at its end. -/
def text : Read String := do
  let n ← length 1
  let bytes ← take n
  if bytes.get! (n - 1) ≠ 0 then throw (.malformed .missingTerminator)
  match Text.decodeUtf8 (bytes.extract 0 (n - 1)) with
  | .ok text => return text
  | .error fault => throw (.utf8 fault)

/-! ## Elements and containers -/

def currentKind : Read Kind := peek Reader.currentKind

def currentName : Read String := peek Reader.currentName

def bookmark : Read Bookmark := do
  return (← get).toBookmark

def returnTo (mark : Bookmark) : Read Unit :=
  modify (·.returnTo mark)

def frame : Read Frame :=
  peek fun r =>
    match r.frames with
    | [] => .error (.misuse .notInside)
    | frame :: _ => .ok frame

/-- The tag and the name of the next element, or the terminator of the container. -/
def readType : Read (Option Kind) := do
  let phase := (← get).phase
  if phase ≠ .type then throw (.misuse (.read .readType phase))
  let frame ← frame
  let marker ← byte
  let pos := (← get).pos
  if marker = 0 then
    if pos ≠ frame.stop then throw (.malformed (.terminator (pos - 1) frame.stop))
    let phase : ReadPhase := match frame.container with
      | .document => .endOfDocument
      | .array => .endOfArray
    modify fun r => { r with kind := none, phase := phase }
    return none
  else
    match Kind.ofTag? marker with
    | none => throw (.malformed (.tag marker (pos - 1)))
    | some kind =>
      let name ← zeroEnded
      modify fun r => { r with kind := some kind, name := name, phase := .value }
      return some kind

/-- Checks that the next value has the expected kind. -/
def expectKind (expected : Kind) : Read Unit :=
  peek fun r =>
    match r.kind with
    | none => .error (.misuse .noCurrentValue)
    | some found =>
      if found = expected then .ok () else .error (.malformed (.wrongKind expected r.name found))

/-- Checks that a value may be read here and that it has the expected kind. -/
def beginValue (expected : Kind) : Read Unit := do
  let phase := (← get).phase
  if phase ≠ .value then throw (.misuse (.readValue expected phase))
  expectKind expected

/-- Leaves the value that has been read. -/
def endValue : Read Unit :=
  modify fun r => { r with kind := none, phase := .type }

/-- Enters a container: only a document may come first, and no container may lie too deep, be too
large or go beyond the one around it. -/
def startContainer (container : Container) : Read Unit := do
  let r ← get
  match r.phase with
  | .initial =>
    if container ≠ .document then throw (.misuse (.readStart container.kind .initial))
  | .value => expectKind container.kind
  | phase => throw (.misuse (.readStart container.kind phase))
  if maxNesting ≤ r.depth then throw .nestingTooDeep
  let size ← length minDocumentSize
  if maxDocumentSize < size then throw .documentTooLarge
  if r.limit < r.pos + size then
    throw (.malformed (.containerLength container.kind r.pos size (r.limit - r.pos)))
  modify fun s =>
    { s with frames := ⟨container, r.pos + size⟩ :: s.frames, kind := none, phase := .type }

def startDocument : Read Unit := startContainer .document

def startArray : Read Unit := startContainer .array

def endContainer : Read Unit :=
  modify fun r =>
    let outer := r.frames.tail
    { r with frames := outer, phase := if outer.isEmpty then .done else .type }

/-- Leaves a document after its terminator. -/
def endDocument : Read Unit := do
  let phase := (← get).phase
  if phase ≠ .endOfDocument then throw (.misuse (.read .endDocument phase))
  endContainer

/-- Leaves an array after its terminator. -/
def endArray : Read Unit := do
  let phase := (← get).phase
  if phase ≠ .endOfArray then throw (.misuse (.read .endArray phase))
  endContainer

/-! ## Passing over values -/

/-- The number of bytes of the next value; patterns have been passed over already. -/
def valueSize (kind : Kind) : Read Nat := do
  match kind.fixedSize? with
  | some n => return n
  | none =>
    match kind with
    | .document | .array | .javaScriptWithScope => peekLength
    | .binary => return 5 + (← peekLength)
    | .dbPointer => return 4 + (← peekLength) + 12
    | .regularExpression =>
      discard zeroEnded
      discard zeroEnded
      return 0
    | _ => return 4 + (← peekLength)

/-- Passes over the next value without looking inside. -/
def skipValue : Read Unit := do
  let kind ← currentKind
  if (← get).phase ≠ .value then throw (.misuse .skipOutside)
  let n ← valueSize kind
  discard (take n)
  endValue

/-- Passes over elements until one has the name, for at most `fuel` elements. -/
def findWithin (name : String) : Nat → Read Bool
  | 0 => throw .endOfInput
  | fuel + 1 => do
    match ← readType with
    | none => return false
    | some _ =>
      if (← get).name = name then return true
      skipValue
      findWithin name fuel

/-- Passes over elements of the innermost container until one has the name, and stops before its
value; false if the container ends first. An element takes bytes, so there are fewer elements than
bytes. -/
def findElement (name : String) : Read Bool := fun r =>
  findWithin name (r.data.size + 1) r

/-- Hands each element to `step` with its name, for at most `fuel` elements. -/
def foldWithin {σ : Type} (step : σ → String → Read σ) : Nat → σ → Read σ
  | 0, _ => throw .endOfInput
  | fuel + 1, s => do
    match ← readType with
    | none => return s
    | some _ => foldWithin step fuel (← step s (← get).name)

/-- Hands the elements up to the end of the innermost container one after another to `step`, which
reads or passes over the value. -/
def foldElements {σ : Type} (step : σ → String → Read σ) (start : σ) : Read σ := fun r =>
  foldWithin step (r.data.size + 1) start r

end Read

end DocumentClient
