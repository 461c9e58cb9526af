import DocumentClient.Session.Cursor

/-!
# Running a query

A plan is run in three steps: a server is selected, the request is sent over the channel to it, and the
reply becomes a cursor. If the last two steps fail, the channel goes back before the failure is
reported.
-/

namespace DocumentClient

structure Selection where
  channel : Channel
  /-- Why no server was found, if that is so. -/
  failure : Option Failure := none
  /-- Whether the caller cancels while a server is looked for. -/
  cancels : Bool := false

/-- Asks for a server and takes the channel to it. -/
def Talk.select (selection : Selection) (mode : ReadMode) (timeout : Option UInt64) : Talk Unit := do
  proceed
  modify (·.record (.select mode timeout))
  match selection.failure with
  | some failure => throw failure
  | none =>
    modify fun c =>
      { c with channel := some selection.channel, cancelled := c.cancelled || selection.cancels }

namespace Plan

variable {shape : Shape}

/-- The limit of the cursor: the limit of the query without its sign. -/
def cursorLimit (plan : Plan shape) : Nat :=
  min plan.limit.toInt.natAbs (2 ^ 31 - 1)

/-- The cursor that starts with a batch. -/
def cursor (plan : Plan shape) (id : Int64) (batch : List shape.Carrier) : Cursor shape where
  collection := plan.collection
  id := id
  limit := plan.cursorLimit
  remaining := plan.cursorLimit
  pageSize := plan.batchSize.toInt.toNat
  batch := batch
  codec := plan.codec
  registry := plan.registry
  timeout := plan.timeout

/-- Sends the first request and takes the first batch. -/
def firstBatch (plan : Plan shape) (server : Server) : Talk (Cursor shape) := do
  Talk.proceed
  let id ← Talk.newId
  let request := plan.request server id
  modify (·.notify (.running plan.collection server request plan.limit plan.batchSize))
  let reply ← Talk.ask (.query request) id plan.timeout
  let values ← Talk.values reply plan.codec plan.registry
  return plan.cursor reply.cursorId values

/-- Runs the plan. A cursor of which the server has no more results gives its channel back at once. -/
def execute (plan : Plan shape) (selection : Selection) : Talk (Cursor shape) := do
  Talk.proceed
  Talk.select selection plan.preference.mode plan.timeout
  let server := selection.channel.server
  fun c =>
    match plan.firstBatch server c with
    | .ok cursor c =>
      if cursor.id = 0 then .ok { cursor with closed := true } c.release else .ok cursor c
    | .error failure c =>
      .error failure (c.notify (.queryFailed plan.collection server failure)).release

end Plan

def Query.execute {shape : Shape} (q : Query shape) (selection : Selection) :
    Talk (Cursor shape) := do
  let plan ← Talk.ofExcept q.validate
  plan.execute selection

end DocumentClient
