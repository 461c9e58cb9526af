import DocumentClient.Failure

/-!
# Settings

What can be set from outside: how much is logged and in which form, and the defaults of queries that
leave the batch size or the time limit open.
-/

namespace DocumentClient

structure LogSettings where
  level : String := "info"
  /-- One JSON object a line instead of plain text. -/
  json : Bool := false
deriving DecidableEq, Repr

/-- What a query uses unless it says otherwise. -/
structure QueryDefaults where
  batchSize : Int32 := 0
  /-- The time limit in milliseconds. -/
  timeout : Option UInt64 := none
deriving DecidableEq, Repr

structure Settings where
  log : LogSettings := {}
  query : QueryDefaults := {}
deriving DecidableEq, Repr

/-- Refuses settings that no query could use. -/
def Settings.validate (s : Settings) : Except Failure Unit :=
  if s.query.batchSize.toInt < 0 then .error (.config (.negativeBatchSize s.query.batchSize))
  else .ok ()

end DocumentClient
