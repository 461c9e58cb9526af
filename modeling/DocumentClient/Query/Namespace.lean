import DocumentClient.Failure

/-!
# Names of collections

The full name of a collection is the name of its database, a dot and the name of the collection in it.
The first dot separates the two, so a database has none in its name.

* `Namespace.ofParts` and `Namespace.parse` build names and refuse bad ones.
* `Namespace.fault?` is the rule that both apply; every namespace obeys it.
-/

namespace DocumentClient

/-- What is wrong with the two parts of a name, if anything. -/
def Namespace.fault? (database collection : String) : Option ArgumentFault :=
  if database.isEmpty then some (.named "database" "cannot be empty")
  else if database.contains '.' then some (.named "database" "cannot contain '.'")
  else if collection.isEmpty then some (.named "collection" "cannot be empty")
  else if database.contains '\x00' || collection.contains '\x00' then
    some (.named "namespace" "cannot contain null character")
  else none

structure Namespace where
  database : String
  collection : String
  faultless : Namespace.fault? database collection = none
deriving DecidableEq

namespace Namespace

def ofParts (database collection : String) : Except Failure Namespace :=
  match h : fault? database collection with
  | some fault => .error (.argument fault)
  | none => .ok ⟨database, collection, h⟩

/-- The name that a text is, split at the first dot. -/
def parse (text : String) : Except Failure Namespace :=
  let cs := text.toList
  match cs.dropWhile (· ≠ '.') with
  | [] => .error (.ofArgument "namespace" ("'" ++ text ++ "' has no '.' separator"))
  | _ :: rest => ofParts (String.ofList (cs.takeWhile (· ≠ '.'))) (String.ofList rest)

def full (ns : Namespace) : String :=
  ns.database ++ "." ++ ns.collection

/-- The name with its parts told apart. -/
def describe (ns : Namespace) : String :=
  "CollectionNamespace \x7b database: " ++ Text.quoted ns.database ++ ", collection: " ++
    Text.quoted ns.collection ++ " \x7d"

end Namespace

end DocumentClient
