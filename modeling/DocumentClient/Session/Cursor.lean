import DocumentClient.Query.Plan
import DocumentClient.Session.Channel

/-!
# Cursors

A cursor hands out the results of a query one by one. It keeps the results that have arrived and asks
for more when they are used up, as long as the server has more and the limit is not reached.

A cursor holds its channel until the server has no more results, a request fails, the limit is reached
or the cursor is closed. A cursor that the server still knows is given up with a message when the
channel goes back early.

* `Session.next` hands out the next result, a failure, or nothing.
* `Session.close` gives everything back; doing it twice is the same as doing it once.
-/

namespace DocumentClient

/-- The state of a cursor apart from its channel. -/
structure Cursor (shape : Shape) where
  collection : Namespace
  /-- The number by which the server knows the cursor; zero if it has no more results. -/
  id : Int64
  /-- The most results to hand out; zero for all. -/
  limit : Nat
  /-- The results still to be handed out, if there is a limit. -/
  remaining : Nat
  /-- The number of results to ask for at a time; zero for whatever the server likes. -/
  pageSize : Nat
  batch : List shape.Carrier
  codec : Codec shape
  registry : Registry
  timeout : Option UInt64
  totalReturned : Nat := 0
  closed : Bool := false

/-- A cursor and the conversation that it goes on with. -/
structure Session (shape : Shape) where
  cursor : Cursor shape
  talk : Conversation

namespace Cursor

variable {shape : Shape}

def limitReached (cursor : Cursor shape) : Bool :=
  0 < cursor.limit ∧ cursor.remaining = 0

/-- Whether nothing is left to hand out. -/
def isExhausted (cursor : Cursor shape) : Bool :=
  cursor.closed && cursor.batch.isEmpty

/-- The number of results to ask for next: never more than may still be handed out. -/
def nextFetchSize (cursor : Cursor shape) : Nat :=
  if 0 < cursor.limit then
    if cursor.pageSize = 0 then cursor.remaining else min cursor.pageSize cursor.remaining
  else cursor.pageSize

def describe (cursor : Cursor shape) : String :=
  "Cursor \x7b collection: " ++ cursor.collection.describe ++ ", cursor_id: " ++
    toString cursor.id.toInt ++ ", remaining: " ++ toString cursor.remaining ++ ", buffered: " ++
    toString cursor.batch.length ++ ", closed: " ++ toString cursor.closed ++ " \x7d"

def moreRequest (cursor : Cursor shape) (id : Int32) : MoreRequest where
  id := id
  collection := cursor.collection.full
  numberToReturn := Int32.ofNat cursor.nextFetchSize
  cursorId := cursor.id

/-- Asks for the next results. The cursor changes only if they come; if the server has no more after
them, the channel goes back. -/
def fetch (cursor : Cursor shape) : Talk (Cursor shape) := do
  Talk.proceed
  discard Talk.held
  let id ← Talk.newId
  let request := cursor.moreRequest id
  let reply ← Talk.ask (.more request) id cursor.timeout
  let values ← Talk.values reply cursor.codec cursor.registry
  modify (·.notify (.fetched cursor.id request.numberToReturn values.length))
  let cursor := { cursor with id := reply.cursorId, batch := cursor.batch ++ values }
  if reply.cursorId = 0 then
    modify Conversation.release
    return { cursor with closed := true }
  else return cursor

/-- Tells the server that the cursor is not wanted any more, also if the caller has cancelled. -/
def kill (cursor : Cursor shape) : Talk Unit := do
  let id ← Talk.newId
  let message ← Talk.ofExcept (Request.encode (.kill ⟨id, [cursor.id]⟩))
  Talk.send .own message cursor.timeout

/-- Gives up a cursor that the server still knows; a failure is only logged. -/
def giveUp (cursor : Cursor shape) (c : Conversation) : Conversation :=
  if cursor.id = 0 then c
  else
    match cursor.kill c with
    | .ok _ c => c
    | .error failure c => c.notify (.killFailed cursor.id cursor.collection failure)

end Cursor

namespace Session

variable {shape : Shape}

/-- Gives up the cursor and the channel, if it is still held, and drops what has arrived. -/
def close (s : Session shape) : Session shape where
  cursor := { s.cursor with closed := true, batch := [] }
  talk :=
    match s.talk.channel with
    | none => s.talk
    | some _ =>
      ((s.cursor.giveUp s.talk).notify (.closed s.cursor.id s.cursor.totalReturned)).release

/-- Hands out the first of the results that have arrived, and closes if the limit is reached by it. -/
def handOut (s : Session shape) (rest : List shape.Carrier) : Session shape :=
  let cursor :=
    { s.cursor with
      batch := rest
      remaining := if 0 < s.cursor.limit then s.cursor.remaining - 1 else s.cursor.remaining
      totalReturned := s.cursor.totalReturned + 1 }
  let s := { s with cursor := cursor }
  if cursor.limitReached then s.close else s

/-- Ends after a request that failed. -/
def fail (s : Session shape) (failure : Failure) (talk : Conversation) : Session shape where
  cursor := { s.cursor with closed := true }
  talk := (talk.notify (.fetchFailed s.cursor.id s.cursor.collection failure)).release

/-- The next result, with at most `fuel` requests for more. -/
def nextWithin : Nat → Session shape → Option (Except Failure shape.Carrier) × Session shape
  | 0, s => (none, s)
  | fuel + 1, s =>
    if s.cursor.limitReached then (none, s.close)
    else
      match s.cursor.batch with
      | a :: rest => (some (.ok a), s.handOut rest)
      | [] =>
        if s.cursor.closed then (none, s)
        else
          match s.cursor.fetch s.talk with
          | .error failure talk => (some (.error failure), s.fail failure talk)
          | .ok cursor talk => nextWithin fuel ⟨cursor, talk⟩

/-- The next result, a failure, or nothing. Batches may be empty; each takes a delivery, so there are not
more requests than deliveries, and one that fails. -/
def next (s : Session shape) : Option (Except Failure shape.Carrier) × Session shape :=
  nextWithin (s.talk.pending + 2) s

end Session

end DocumentClient
