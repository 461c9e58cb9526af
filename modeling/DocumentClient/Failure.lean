import DocumentClient.Document.ObjectId
import DocumentClient.Wire.Fault

/-!
# Failures of an operation

What a whole operation can fail with: a fault of reading or writing, an argument out of range, a
reply that breaks the conversation, a cancellation, a bad setting, or whatever the channel and the
server selection report in their own words.

* `Failure.kind` sorts failures for a caller who has to react.
* `Failure.detail` and `Failure.message` put them into words. Truncation, bad text and limits keep
  their own words and count as faults of the format.
-/

namespace DocumentClient

inductive FailureKind where
  | format
  | representation
  | invalidUsage
  | argument
  | connection
  | timeout
  | cancelled
  | protocol
  | config
  | io
deriving DecidableEq, Repr

/-- What introduces the words of a failure of each sort. -/
def FailureKind.heading : FailureKind → String
  | format => "Format error: "
  | representation => "Representation error: "
  | invalidUsage => "Invalid usage: "
  | argument => "Invalid argument: "
  | connection => "Connection error: "
  | timeout => "Timeout: "
  | cancelled => "Operation cancelled: "
  | protocol => "Protocol error: "
  | config => "Config error: "
  | io => "IO error: "

/-- Messages that break the conversation. -/
inductive ProtocolFault where
  | shortHeader (size : Nat)
  | unknownOpcode (raw : Int32)
  | lengthMismatch (declared : Int32) (size : Nat)
  | truncated (what : String)
  | openText
  | badText (fault : Text.Utf8Fault)
  | negativeCount (count : Int32)
  | replyNotRequest
  | notReply (found : String)
  | documentOverrun (offset : Nat)
  | documentCount (declared : Int32) (actual : Nat)
  | wrongRequest (answered expected : Int32)
  | cursorNotFound (id : Int64)
  | queryFailure (reason : String)
deriving DecidableEq, Repr

def ProtocolFault.message : ProtocolFault → String
  | shortHeader size => s!"message of {size} bytes is shorter than its header"
  | unknownOpcode raw => "unknown opcode " ++ toString raw.toInt
  | lengthMismatch declared size =>
    "message length " ++ toString declared.toInt ++ s!" does not match received {size} bytes"
  | truncated what => "truncated " ++ what
  | openText => "unterminated cstring"
  | badText fault => "invalid cstring: " ++ fault.message
  | negativeCount count => "negative cursor count " ++ toString count.toInt
  | replyNotRequest => "OP_REPLY is not a request"
  | notReply found => "expected OP_REPLY, received " ++ found
  | documentOverrun offset => s!"document at offset {offset} overruns the reply"
  | documentCount declared actual =>
    "reply declares " ++ toString declared.toInt ++ s!" documents but contains {actual}"
  | wrongRequest answered expected =>
    "reply is for request " ++ toString answered.toInt ++ " but " ++ toString expected.toInt ++
      " was expected"
  | cursorNotFound id => "cursor " ++ toString id.toInt ++ " not found on server"
  | queryFailure reason => "query failure: " ++ reason

/-- Arguments that are missing or out of range. -/
inductive ArgumentFault where
  /-- The named argument breaks the stated rule. -/
  | named (name reason : String)
  /-- A message would be longer than any may be. -/
  | messageSize (size limit : Nat)
deriving DecidableEq, Repr

def ArgumentFault.message : ArgumentFault → String
  | named name reason => name ++ ": " ++ reason
  | messageSize size limit => s!"message of {size} bytes exceeds the maximum of {limit}"

/-- Settings that cannot be read, written or used. -/
inductive ConfigFault where
  | unreadable
  | unparsable
  | unwritable
  | negativeBatchSize (found : Int32)
  | badFilter
  | alreadyInstalled
deriving DecidableEq, Repr

def ConfigFault.message : ConfigFault → String
  | unreadable => "Failed to read config"
  | unparsable => "Failed to parse config"
  | unwritable => "Failed to serialize config"
  | negativeBatchSize found => "query.batch_size must be >= 0, got " ++ toString found.toInt
  | badFilter => "Invalid log level "
  | alreadyInstalled => "Failed to install"

inductive Failure where
  | wire (fault : Fault)
  | objectId (fault : ObjectIdFault)
  | protocol (fault : ProtocolFault)
  | argument (fault : ArgumentFault)
  /-- The operation was cancelled before it would have blocked. -/
  | cancelled
  /-- A fetch was tried on a channel that is given back. -/
  | channelReleased
  | config (fault : ConfigFault)
  /-- A failure that comes from outside, in its own words. -/
  | reported (kind : FailureKind) (detail : String)
deriving DecidableEq, Repr

namespace Failure

def kind : Failure → FailureKind
  | wire (.unrepresentable _) => .representation
  | wire (.misuse _) => .invalidUsage
  | wire _ => .format
  | objectId _ => .format
  | protocol _ => .protocol
  | argument _ => .argument
  | cancelled => .cancelled
  | channelReleased => .invalidUsage
  | config _ => .config
  | reported kind _ => kind

/-- The words of a failure after its heading. -/
def detail : Failure → String
  | wire (.malformed cause) => cause.message
  | wire (.unrepresentable cause) => cause.message
  | wire (.misuse cause) => cause.message
  | wire other => other.message
  | objectId fault => fault.message
  | protocol fault => fault.message
  | argument fault => fault.message
  | cancelled => "cancellation requested before blocking call"
  | channelReleased => "cursor channel already released"
  | config fault => fault.message
  | reported _ detail => detail

def message (failure : Failure) : String :=
  failure.kind.heading ++ failure.detail

/-- Whether the failure lies in the format. -/
def isFormat (failure : Failure) : Bool := failure.kind = .format

/-- Whether a value had no form of the wanted kind. -/
def isRepresentation (failure : Failure) : Bool := failure.kind = .representation

/-- Whether the caller made the mistake. -/
def isUsage (failure : Failure) : Bool :=
  failure.kind = .argument ∨ failure.kind = .invalidUsage

def ofArgument (name reason : String) : Failure :=
  .argument (.named name reason)

end Failure

end DocumentClient
