import DocumentClient.Wire.Reader.Value
import DocumentClient.Wire.Writer.Value

/-!
# Whole documents as bytes

A byte string is a document if one can be read from it and nothing follows. Appending a document to
other bytes adds all of it or, if it cannot be written, nothing.
-/

namespace DocumentClient

namespace Document

def encode (doc : Document) : Except Fault ByteArray :=
  Write.alone (Write.document doc)

/-- Adds the bytes of a document to those in the state. What is behind the last byte is split off, the
writer goes on in it, and the two are joined once the document is finished. -/
def appendTo (doc : Document) : EStateM Fault ByteArray Unit := fun buffer =>
  let kept := buffer.extract 0 buffer.size
  let rest := buffer.extract buffer.size buffer.size
  match Write.document doc (.ofBytes rest) with
  | .error fault _ => .error fault kept
  | .ok _ w =>
    match w.finish with
    | .error fault => .error fault kept
    | .ok bytes => .ok () (kept ++ bytes)

def decode (data : ByteArray) : Except Fault Document :=
  match Read.document (.ofBytes data) with
  | .error fault _ => .error fault
  | .ok doc r =>
    if r.pos ≠ data.size then .error (.malformed (.trailing (data.size - r.pos))) else .ok doc

/-- The length that a byte string declares at its front; nothing else is checked. -/
def declaredSize (data : ByteArray) : Except Fault Nat :=
  if data.size < 4 then .error .endOfInput
  else
    let raw := Bytes.toInt32 (data.extract 0 4)
    if raw.toInt < minDocumentSize then .error (.malformed (.documentLength raw))
    else .ok raw.toInt.toNat

end Document

end DocumentClient
