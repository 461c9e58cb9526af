import DocumentClient.Document.Basic
import DocumentClient.Failure

/-!
# Servers and which of them may answer

A query is answered by one server. The read preference says which members of a replica set may be
that server; sets of tags narrow the choice, except among primary members, of which there is one.
-/

namespace DocumentClient

/-- What a server is to the others. -/
inductive ServerRole where
  | standalone
  | primary
  | secondary
  /-- Passes queries on to the servers of a cluster. -/
  | router
deriving DecidableEq, Repr

/-- A server and where to reach it. -/
structure Server where
  endpoint : String
  role : ServerRole
deriving DecidableEq, Repr

/-- Whether the server passes queries on. -/
def Server.isRouter (server : Server) : Bool := server.role = .router

inductive ReadMode where
  | primary
  | primaryPreferred
  | secondary
  | secondaryPreferred
  | nearest
deriving DecidableEq, Repr

def ReadMode.label : ReadMode → String
  | primary => "primary"
  | primaryPreferred => "primaryPreferred"
  | secondary => "secondary"
  | secondaryPreferred => "secondaryPreferred"
  | nearest => "nearest"

/-- Which members may answer. -/
structure ReadPreference where
  mode : ReadMode := .primary
  tagSets : List Document := []
  untagged : mode = .primary → tagSets = [] := by simp

namespace ReadPreference

def ofMode (mode : ReadMode) : ReadPreference where
  mode := mode
  untagged _ := rfl

/-- The preference with sets of tags in place of its own. -/
def withTagSets (preference : ReadPreference) (tagSets : List Document) :
    Except Failure ReadPreference :=
  if h : preference.mode = .primary → tagSets = [] then .ok ⟨preference.mode, tagSets, h⟩
  else .error (.ofArgument "tag_sets" "cannot be combined with primary read preference")

/-- Whether only the primary member may answer. -/
def isPrimary (preference : ReadPreference) : Bool := preference.mode = .primary

def toDocument (preference : ReadPreference) : Document :=
  ⟨("mode", .string preference.mode.label) ::
    if preference.tagSets.isEmpty then []
    else [("tags", .array (preference.tagSets.map Document.toValue))]⟩

end ReadPreference

end DocumentClient
