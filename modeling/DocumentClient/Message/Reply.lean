import DocumentClient.Message.Body
import DocumentClient.Typed.Coding

/-!
# Replies

A reply carries flags, the number of a cursor and documents. Reading a reply cuts it into its documents
without looking inside them.

* `Reply.decode` accepts a reply only if the documents fill it and are as many as it says.
* `Reply.check` says whether a reply answers a request and reports success.
* `Reply.values` reads the documents with a codec.
-/

namespace DocumentClient

/-- A reply whose documents are still bytes. -/
structure Reply where
  header : Header
  flags : Flags
  cursorId : Int64
  startingFrom : Int32
  numberReturned : Int32
  documents : List ByteArray
deriving DecidableEq

namespace Reply

/-- The size of what comes before the documents and after the header. -/
def fixedSize : Nat := 20

/-! ## Writing -/

/-- The bytes of documents one after another. -/
def documentsBytes (docs : List Document) : Except Failure ByteArray :=
  docs.foldlM (fun bytes doc => do return bytes ++ (← Pieces.ofFault doc.encode)) ByteArray.empty

def encode (id responseTo : Int32) (flags : Flags) (cursorId : Int64) (startingFrom : Int32)
    (docs : List Document) : Except Failure ByteArray := do
  let documents ← documentsBytes docs
  message .reply id responseTo <|
    Bytes.ofInt32 flags.bits ++ Bytes.ofInt64 cursorId ++ Bytes.ofInt32 startingFrom ++
      Bytes.ofInt32 (Int32.ofInt docs.length) ++ documents

/-! ## Reading -/

/-- The next document as bytes. -/
def rawDocument : Pieces ByteArray := do
  let size ← Pieces.documentSize
  let b ← get
  if b.data.size < b.pos + size then throw (.protocol (.documentOverrun b.pos))
  Pieces.take size "document"

/-- Cuts the rest into documents, at most `fuel` of them. -/
def rawDocuments : Nat → Array ByteArray → Pieces (List ByteArray)
  | 0, docs => return docs.toList
  | fuel + 1, docs => do
    if ← Pieces.atEnd then return docs.toList
    rawDocuments fuel (docs.push (← rawDocument))

/-- The rest of a reply. A document takes at least one byte, so the fuel lasts. -/
def pieces (header : Header) : Pieces Reply := do
  let fixed ← Pieces.take fixedSize "reply body"
  let declared := Bytes.toInt32 (fixed.extract 16 20)
  let documents ← rawDocuments (← get).data.size #[]
  if declared.toInt ≠ documents.length then
    throw (.protocol (.documentCount declared documents.length))
  return {
    header := header
    flags := ⟨Bytes.toInt32 (fixed.extract 0 4)⟩
    cursorId := Bytes.toInt64 (fixed.extract 4 12)
    startingFrom := Bytes.toInt32 (fixed.extract 12 16)
    numberReturned := declared
    documents := documents }

/-- The reply that a message is. -/
def decode (data : ByteArray) : Except Failure Reply := do
  let header ← Header.ofBytes data
  if header.opcode ≠ .reply then throw (.protocol (.notReply header.opcode.label))
  let (reply, _) ← pieces header ⟨data, headerSize⟩
  return reply

/-! ## Use -/

/-- Why a query failed, as the first document tells it. -/
def failureReason (documents : List ByteArray) : Except Failure String :=
  match documents with
  | [] => .ok "unknown error"
  | raw :: _ => do
    let doc ← Pieces.ofFault (Document.decode raw)
    let reason := (doc.getString? "$err").getD "unknown error"
    match doc.getInt64? "code" with
    | some code => return reason ++ " (code " ++ toString code.toInt ++ ")"
    | none => return reason

/-- Checks that a reply answers the request with the given number and reports success. -/
def check (reply : Reply) (id : Int32) : Except Failure Unit := do
  if reply.header.responseTo ≠ id then
    throw (.protocol (.wrongRequest reply.header.responseTo id))
  if reply.flags.contains .cursorNotFound then
    throw (.protocol (.cursorNotFound reply.cursorId))
  if reply.flags.contains .queryFailure then
    throw (.protocol (.queryFailure (← failureReason reply.documents)))

def values {shape : Shape} (reply : Reply) (codec : Codec shape) :
    EStateM Fault Registry (List shape.Carrier) :=
  reply.documents.mapM codec.decodeDocument

end Reply

end DocumentClient
