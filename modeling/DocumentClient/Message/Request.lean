import DocumentClient.Message.Body

/-!
# Requests

A client asks for documents, asks for more of them, or gives cursors up. Each request is written as a
message and can be read back from it; bytes behind the last piece of a request are ignored.
-/

namespace DocumentClient

/-- Asks for the documents of a collection that match. -/
structure QueryRequest where
  id : Int32
  flags : Flags
  collection : String
  skip : Int32
  numberToReturn : Int32
  query : Document
  /-- The fields wanted; all if there is no such document. -/
  projection : Option Document

/-- Asks for the next documents of a cursor. -/
structure MoreRequest where
  id : Int32
  collection : String
  numberToReturn : Int32
  cursorId : Int64
deriving DecidableEq, Repr

/-- Gives cursors up. -/
structure KillRequest where
  id : Int32
  cursorIds : List Int64
deriving DecidableEq, Repr

inductive Request where
  | query (request : QueryRequest)
  | more (request : MoreRequest)
  | kill (request : KillRequest)

/-! ## Writing -/

/-- The name of a collection with a zero byte at its end, and so without one inside. -/
def collectionBytes (name : String) : Except Failure ByteArray :=
  if name.contains '\x00' then .error (.ofArgument "collection" "must not contain a null byte")
  else .ok (name.toUTF8.push 0)

namespace Request

/-- The word that the format reserves. -/
def reserved : ByteArray := Bytes.ofInt32 0

def encode : Request → Except Failure ByteArray
  | query q => do
    let collection ← collectionBytes q.collection
    let query ← Pieces.ofFault q.query.encode
    let projection ← match q.projection with
      | none => pure ByteArray.empty
      | some fields => Pieces.ofFault fields.encode
    message .query q.id 0 <|
      Bytes.ofInt32 q.flags.bits ++ collection ++ Bytes.ofInt32 q.skip ++
        Bytes.ofInt32 q.numberToReturn ++ query ++ projection
  | more m => do
    let collection ← collectionBytes m.collection
    message .getMore m.id 0 <|
      reserved ++ collection ++ Bytes.ofInt32 m.numberToReturn ++ Bytes.ofInt64 m.cursorId
  | kill k =>
    message .killCursors k.id 0 <|
      k.cursorIds.foldl (fun bytes id => bytes ++ Bytes.ofInt64 id)
        (reserved ++ Bytes.ofInt32 (Int32.ofInt k.cursorIds.length))

/-! ## Reading -/

def queryPieces (id : Int32) : Pieces Request := do
  let flags ← Pieces.take 4 "query flags"
  let collection ← Pieces.zeroEnded
  let counts ← Pieces.take 8 "skip/return counts"
  let query ← Pieces.document
  let projection ← if ← Pieces.atEnd then pure none else some <$> Pieces.document
  return .query
    { id := id
      flags := ⟨Bytes.toInt32 flags⟩
      collection := collection
      skip := Bytes.toInt32 (counts.extract 0 4)
      numberToReturn := Bytes.toInt32 (counts.extract 4 8)
      query := query
      projection := projection }

def morePieces (id : Int32) : Pieces Request := do
  discard (Pieces.take 4 "reserved field")
  let collection ← Pieces.zeroEnded
  let rest ← Pieces.take 12 "get more body"
  return .more
    { id := id
      collection := collection
      numberToReturn := Bytes.toInt32 (rest.extract 0 4)
      cursorId := Bytes.toInt64 (rest.extract 4 12) }

def killPieces (id : Int32) : Pieces Request := do
  let head ← Pieces.take 8 "kill cursors body"
  let count := Bytes.toInt32 (head.extract 4 8)
  if count.toInt < 0 then throw (.protocol (.negativeCount count))
  let ids ← Pieces.take (count.toInt.toNat * 8) "cursor ids"
  return .kill
    { id := id
      cursorIds := (List.range count.toInt.toNat).map fun i =>
        Bytes.toInt64 (ids.extract (8 * i) (8 * i + 8)) }

/-- The request that a message is. -/
def decode (data : ByteArray) : Except Failure Request := do
  let header ← Header.ofBytes data
  let pieces ← match header.opcode with
    | .query => pure (queryPieces header.id)
    | .getMore => pure (morePieces header.id)
    | .killCursors => pure (killPieces header.id)
    | .reply => throw (.protocol .replyNotRequest)
  let (request, _) ← pieces ⟨data, headerSize⟩
  return request

end Request

end DocumentClient
