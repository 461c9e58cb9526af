/-!
# Limits and phases

The limits of the wire format, and the phases that reading and writing a document go through.
-/

namespace DocumentClient

/-- The largest size of a document in bytes. -/
def maxDocumentSize : Nat := 16777216

/-- The smallest size of a document: its length and its terminator. -/
def minDocumentSize : Nat := 5

/-- The most containers that may lie inside each other. -/
def maxNesting : Nat := 100

inductive ReadPhase where
  | initial
  /-- Before the tag of an element or the terminator of a container. -/
  | type
  /-- Before a value whose kind and name are known. -/
  | value
  /-- After the terminator of a document. -/
  | endOfDocument
  /-- After the terminator of an array. -/
  | endOfArray
  | done
deriving DecidableEq, Repr

def ReadPhase.label : ReadPhase → String
  | initial => "Initial"
  | type => "Type"
  | value => "Value"
  | endOfDocument => "EndOfDocument"
  | endOfArray => "EndOfArray"
  | done => "Done"

inductive WritePhase where
  | initial
  /-- Before the name of an element, or before an item of an array. -/
  | name
  /-- Before the value of an element whose name is known. -/
  | value
  | done
deriving DecidableEq, Repr

def WritePhase.label : WritePhase → String
  | initial => "Initial"
  | name => "Name"
  | value => "Value"
  | done => "Done"

end DocumentClient
