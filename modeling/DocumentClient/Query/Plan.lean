import DocumentClient.Message.Request
import DocumentClient.Query.Namespace
import DocumentClient.Query.Server
import DocumentClient.Query.Sort
import DocumentClient.Settings.Basic
import DocumentClient.Typed.Registry

/-!
# Queries and plans

A query is put together piece by piece. A plan is a query that can be run: everything that must be
given is there, sizes are not negative, and the codec of the results is found.

* `Query.validate` makes a plan or says what is missing.
* `firstBatchSize` is the number of documents that the first request asks for.
* `Plan.queryDocument` is the filter by itself, or wrapped if more than the filter must be told.
-/

namespace DocumentClient

structure Query (shape : Shape) where
  collection : Option Namespace := none
  filter : Option Document := none
  /-- The fields wanted; all if there is no such document. -/
  projection : Option Document := none
  sort : SortBy := {}
  /-- Further things to tell the server, by name. -/
  options : Document := .empty
  skip : Int32 := 0
  /-- The most results wanted; zero for all, and negative if the server shall send one batch only. -/
  limit : Int32 := 0
  batchSize : Option Int32 := none
  flags : Flags := .none
  preference : ReadPreference := {}
  /-- The codec of the results; if there is none, the registry has it. -/
  codec : Option (Codec shape) := none
  registry : Registry := .default
  /-- The time limit in milliseconds. -/
  timeout : Option UInt64 := none

structure Plan (shape : Shape) where
  collection : Namespace
  filter : Document
  projection : Option Document
  sort : SortBy
  options : Document
  skip : Int32
  limit : Int32
  batchSize : Int32
  flags : Flags
  preference : ReadPreference
  codec : Codec shape
  registry : Registry
  timeout : Option UInt64
  batchSize_nonneg : 0 ≤ batchSize.toInt
  skip_nonneg : 0 ≤ skip.toInt

namespace Query

variable {shape : Shape}

/-- The query with defaults for what it leaves open. -/
def withDefaults (q : Query shape) (defaults : QueryDefaults) : Query shape :=
  { q with
    batchSize := some (q.batchSize.getD defaults.batchSize)
    timeout := q.timeout.or defaults.timeout }

/-- Says that a size is negative. -/
def negativeSize (name : String) (n : Int32) : Failure :=
  .ofArgument name ("must be >= 0, got " ++ toString n.toInt)

/-- What must be given and is not. -/
def required {α : Type} (name : String) (part : Option α) : Except Failure α :=
  match part with
  | some a => .ok a
  | none => .error (.ofArgument name "must be set")

/-- The codec of the results, with the registry afterwards. -/
def resultCodec (q : Query shape) : Except Failure (Codec shape × Registry) :=
  match q.codec with
  | some codec => .ok (codec, q.registry)
  | none =>
    match Registry.lookup shape q.registry with
    | .ok found registry => .ok (found.codec, registry)
    | .error fault _ => .error (.wire fault)

/-- Checks a query. Sizes come first, then what must be given, then the codec. -/
def validate (q : Query shape) : Except Failure (Plan shape) := do
  let batchSize := q.batchSize.getD 0
  if hb : 0 ≤ batchSize.toInt then
    if hs : 0 ≤ q.skip.toInt then
      let collection ← required "collection" q.collection
      let filter ← required "filter" q.filter
      let (codec, registry) ← q.resultCodec
      return {
        collection := collection
        filter := filter
        projection := q.projection
        sort := q.sort
        options := q.options
        skip := q.skip
        limit := q.limit
        batchSize := batchSize
        flags := q.flags
        preference := q.preference
        codec := codec
        registry := registry
        timeout := q.timeout
        batchSize_nonneg := hb
        skip_nonneg := hs }
    else throw (negativeSize "skip" q.skip)
  else throw (negativeSize "batch_size" batchSize)

end Query

/-- The number of documents that a first request asks for. A negative limit is told as it is; otherwise
it is the smaller of limit and batch size, of which a zero does not count. -/
def firstBatchSize (limit batchSize : Int32) : Int32 :=
  if limit < 0 then limit
  else if limit = 0 then batchSize
  else if batchSize = 0 then limit
  else if limit < batchSize then limit
  else batchSize

namespace Plan

variable {shape : Shape}

def numberToReturn (plan : Plan shape) : Int32 :=
  firstBatchSize plan.limit plan.batchSize

/-- The flags, and the one that lets other members than the primary answer if the preference does. -/
def effectiveFlags (plan : Plan shape) : Flags :=
  if plan.preference.isPrimary then plan.flags else plan.flags.union .secondaryOk

/-- Whether the server has to be told the read preference, which it then passes on. -/
def forwardsPreference (plan : Plan shape) (server : Server) : Bool :=
  !plan.preference.isPrimary && server.isRouter

/-- What is told besides the filter, by name. -/
def wrapping (plan : Plan shape) (server : Server) : List (String × Value) :=
  (if plan.sort.isEmpty then [] else [("$orderby", plan.sort.document.toValue)])
    ++ plan.options.fields
    ++ (if plan.forwardsPreference server then
        [("$readPreference", plan.preference.toDocument.toValue)] else [])

/-- The filter, wrapped if more has to be told. -/
def queryDocument (plan : Plan shape) (server : Server) : Document :=
  match plan.wrapping server with
  | [] => plan.filter
  | more => .ofList (("$query", plan.filter.toValue) :: more)

def request (plan : Plan shape) (server : Server) (id : Int32) : QueryRequest where
  id := id
  flags := plan.effectiveFlags
  collection := plan.collection.full
  skip := plan.skip
  numberToReturn := plan.numberToReturn
  query := plan.queryDocument server
  projection := plan.projection

end Plan

example : firstBatchSize (-5) 10 = -5 := by decide
example : firstBatchSize 0 7 = 7 := by decide
example : firstBatchSize 9 0 = 9 := by decide
example : firstBatchSize 10 3 = 3 := by decide

end DocumentClient
