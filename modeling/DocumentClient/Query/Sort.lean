import DocumentClient.Document.Basic

/-!
# Orders of results

An order names fields one after another with a direction each, or asks for the score of a text search.
Naming a field again changes its direction and keeps its place.
-/

namespace DocumentClient

inductive Direction where
  | ascending
  | descending
deriving DecidableEq, Repr

def Direction.number : Direction → Int32
  | ascending => 1
  | descending => -1

structure SortBy where
  document : Document := .empty

namespace SortBy

/-- Adds fields with one direction. -/
def add (sort : SortBy) (direction : Direction) (keys : List String) : SortBy :=
  ⟨keys.foldl (fun doc key => doc.insert key (.int32 direction.number)) sort.document⟩

def ascending (sort : SortBy) (keys : List String) : SortBy := sort.add .ascending keys

def descending (sort : SortBy) (keys : List String) : SortBy := sort.add .descending keys

/-- Adds the score of a text search under a name. -/
def textScore (sort : SortBy) (key : String) : SortBy :=
  ⟨sort.document.insert key (.document [("$meta", .string "textScore")])⟩

def isEmpty (sort : SortBy) : Bool := sort.document.isEmpty

end SortBy

end DocumentClient
