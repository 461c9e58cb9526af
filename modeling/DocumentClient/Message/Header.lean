import DocumentClient.Failure

/-!
# Message headers and flags

Every message starts with sixteen bytes: its length, its own number, the number of the message that it
answers, and its opcode. All are little-endian words.

* `Header.ofBytes` accepts a header only if the length is that of the message received.
* `Flags` are sets of bits; `contains` asks whether all bits of another set are there.
-/

namespace DocumentClient

inductive Opcode where
  | reply
  | query
  | getMore
  | killCursors
deriving DecidableEq, Repr

namespace Opcode

def number : Opcode → Int32
  | reply => 1
  | query => 2004
  | getMore => 2005
  | killCursors => 2007

/-- The name of an opcode, as messages show it. -/
def label : Opcode → String
  | reply => "Reply"
  | query => "Query"
  | getMore => "GetMore"
  | killCursors => "KillCursors"

def ofNumber (n : Int32) : Except Failure Opcode :=
  match [reply, query, getMore, killCursors].find? fun opcode => opcode.number = n with
  | some opcode => .ok opcode
  | none => .error (.protocol (.unknownOpcode n))

@[simp] theorem ofNumber_number (opcode : Opcode) : ofNumber opcode.number = .ok opcode := by
  cases opcode <;> rfl

end Opcode

structure Header where
  length : Int32
  id : Int32
  /-- The number of the message that this one answers. -/
  responseTo : Int32
  opcode : Opcode
deriving DecidableEq, Repr

def headerSize : Nat := 16

/-- The largest size of a message. -/
def maxMessageSize : Nat := 48000000

namespace Header

def toBytes (h : Header) : ByteArray :=
  Bytes.ofInt32 h.length ++ Bytes.ofInt32 h.id ++ Bytes.ofInt32 h.responseTo ++
    Bytes.ofInt32 h.opcode.number

/-- The header of a message that was received as a whole. -/
def ofBytes (data : ByteArray) : Except Failure Header := do
  if data.size < headerSize then throw (.protocol (.shortHeader data.size))
  let word (i : Nat) : Int32 := Bytes.toInt32 (data.extract i (i + 4))
  let opcode ← Opcode.ofNumber (word 12)
  if (word 0).toInt ≠ data.size then throw (.protocol (.lengthMismatch (word 0) data.size))
  return { length := word 0, id := word 4, responseTo := word 8, opcode := opcode }

end Header

/-- A message with its header, if it is not too long. -/
def message (opcode : Opcode) (id responseTo : Int32) (body : ByteArray) :
    Except Failure ByteArray :=
  let size := headerSize + body.size
  if maxMessageSize < size then .error (.argument (.messageSize size maxMessageSize))
  else .ok (Header.toBytes ⟨Int32.ofInt size, id, responseTo, opcode⟩ ++ body)

/-! ## Flags -/

structure Flags where
  bits : Int32
deriving DecidableEq, Repr

namespace Flags

def none : Flags := ⟨0⟩

def union (a b : Flags) : Flags := ⟨a.bits ||| b.bits⟩

/-- Whether all bits of the other set are there. -/
def contains (a b : Flags) : Bool := a.bits &&& b.bits = b.bits

/-- A query may be answered by a member that is not the primary one. -/
def secondaryOk : Flags := ⟨4⟩

/-- A reply is for a cursor that does not exist. -/
def cursorNotFound : Flags := ⟨1⟩

/-- A reply tells why a query failed. -/
def queryFailure : Flags := ⟨2⟩

end Flags

end DocumentClient
