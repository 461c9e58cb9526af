import DocumentClient.Json.Relaxed
import DocumentClient.Message.Request
import DocumentClient.Query.Namespace
import DocumentClient.Query.Server
import DocumentClient.Session.Cancellation

/-!
# What an observer sees

Events are what happens on the channel, in the order in which it happens. Notices are for the log: each
has a level and named texts, one of which is the message itself.
-/

namespace DocumentClient

/-- What happens on the way to a server. -/
inductive Event where
  | select (mode : ReadMode) (timeout : Option UInt64)
  /-- A message is sent under a token. -/
  | send {token : Token} (message : ByteArray) (timeout : Option UInt64)
  /-- The reply to a request is waited for. -/
  | receive (id : Int32) (timeout : Option UInt64)
  | release
deriving DecidableEq

inductive NoticeLevel where
  | debug
  | warn
deriving DecidableEq, Repr

inductive Notice where
  | running (collection : Namespace) (server : Server) (request : QueryRequest)
      (limit batchSize : Int32)
  | queryFailed (collection : Namespace) (server : Server) (failure : Failure)
  | fetched (cursorId : Int64) (requested : Int32) (received : Nat)
  | fetchFailed (cursorId : Int64) (collection : Namespace) (failure : Failure)
  | killFailed (cursorId : Int64) (collection : Namespace) (failure : Failure)
  | closed (cursorId : Int64) (totalReturned : Nat)

namespace Notice

/-- The level of a notice: failures are warnings. -/
def level : Notice → NoticeLevel
  | running .. | fetched .. | closed .. => .debug
  | queryFailed .. | fetchFailed .. | killFailed .. => .warn

def message : Notice → String
  | running .. => "Running query"
  | queryFailed .. => "Query failed"
  | fetched .. => "Fetched next batch"
  | fetchFailed .. => "Failed to fetch next batch"
  | killFailed .. => "Failed to kill cursor"
  | closed .. => "Cursor closed"

def shown (n : Int32) : String := toString n.toInt

/-- The identity and the place of a cursor that a failure is about. -/
def failureFields (cursorId : Int64) (collection : Namespace) (failure : Failure) :
    List (String × String) :=
  [("cursor_id", toString cursorId.toInt), ("collection", collection.full),
    ("error", failure.message)]

/-- The further texts of a notice by name. -/
def details : Notice → List (String × String)
  | running collection server request limit batchSize =>
    [("collection", collection.full), ("endpoint", server.endpoint),
      ("query", request.query.relaxedJson),
      ("fields", (request.projection.map Document.relaxedJson).getD "null"),
      ("skip", shown request.skip), ("limit", shown limit), ("batch_size", shown batchSize)]
  | queryFailed collection server failure =>
    [("collection", collection.full), ("endpoint", server.endpoint), ("error", failure.message)]
  | fetched cursorId requested received =>
    [("cursor_id", toString cursorId.toInt), ("requested", shown requested),
      ("received", toString received)]
  | fetchFailed cursorId collection failure => failureFields cursorId collection failure
  | killFailed cursorId collection failure => failureFields cursorId collection failure
  | closed cursorId totalReturned =>
    [("cursor_id", toString cursorId.toInt), ("total_returned", toString totalReturned)]

/-- All texts of a notice by name. -/
def fields (notice : Notice) : List (String × String) :=
  ("message", notice.message) :: notice.details

end Notice

end DocumentClient
