import DocumentClient.Message.Header
import DocumentClient.Wire.Encoding

/-!
# Bodies of messages

What follows the header is taken piece by piece from front to back. A piece that is not there as a
whole is reported by name, and nothing is read beyond the bytes received.
-/

namespace DocumentClient

/-- A message from which the bytes before `pos` have been taken. -/
structure Body where
  data : ByteArray
  pos : Nat
deriving DecidableEq

/-- Takes pieces from a body. -/
abbrev Pieces := StateT Body (Except Failure)

namespace Pieces

/-- The next `n` bytes, which are called `what`. -/
def take (n : Nat) (what : String) : Pieces ByteArray := fun b =>
  if b.data.size < b.pos + n then .error (.protocol (.truncated what))
  else .ok (b.data.extract b.pos (b.pos + n), { b with pos := b.pos + n })

def atEnd : Pieces Bool := do
  let b ← get
  return b.data.size ≤ b.pos

/-- A text that ends at the first zero byte. -/
def zeroEnded : Pieces String := fun b =>
  match Read.zeroFrom? b.data (b.data.size - b.pos) b.pos with
  | none => .error (.protocol .openText)
  | some found =>
    match Text.decodeUtf8 (b.data.extract b.pos found) with
    | .ok text => .ok (text, { b with pos := found + 1 })
    | .error fault => .error (.protocol (.badText fault))

/-- Passes a fault of a document on. -/
def ofFault {α : Type} (result : Except Fault α) : Except Failure α :=
  result.mapError .wire

/-- The size that the next document declares. -/
def documentSize : Pieces Nat := do
  let b ← get
  ofFault (Document.declaredSize (b.data.extract b.pos (min b.data.size (b.pos + 4))))

def document : Pieces Document := do
  let bytes ← take (← documentSize) "document"
  ofFault (Document.decode bytes)

end Pieces

end DocumentClient
