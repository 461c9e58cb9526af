/-!
# UTF-8 text and where it goes wrong

A byte string that is no text is reported with the length of its longest valid beginning and the
length of the bad sequence that follows, or with the fact that the bytes end inside a sequence.

The scan is a state machine over the bytes. Between characters it is at a `boundary`; inside a
character it knows how many bytes it has seen, how many must follow and in which range the next
one lies, so overlong forms, surrogates and numbers beyond the last code point fail at the first
byte that shows them.
-/

namespace DocumentClient.Text

/-- Where and how a byte string stops being text. -/
structure Utf8Fault where
  /-- The length of the longest beginning that is text. -/
  validLength : Nat
  /-- The length of the bad sequence; `none` if the bytes end inside a sequence. -/
  badLength : Option Nat
deriving DecidableEq, Repr

inductive Utf8State where
  /-- Between two characters. -/
  | boundary
  /-- Inside a character, of which `seen` bytes are read and `left` bytes must follow, the next
  one between `low` and `high`. -/
  | inside (seen left low high : Nat)
deriving DecidableEq, Repr

/-- What must follow the first byte of a character; `none` if no character starts with it. -/
def Utf8State.ofLead? (b : Nat) : Option Utf8State :=
  if b < 0x80 then some .boundary
  else if b < 0xC2 then none
  else if b < 0xE0 then some (.inside 1 1 0x80 0xBF)
  else if b = 0xE0 then some (.inside 1 2 0xA0 0xBF)
  else if b = 0xED then some (.inside 1 2 0x80 0x9F)
  else if b < 0xF0 then some (.inside 1 2 0x80 0xBF)
  else if b = 0xF0 then some (.inside 1 3 0x90 0xBF)
  else if b < 0xF4 then some (.inside 1 3 0x80 0xBF)
  else if b = 0xF4 then some (.inside 1 3 0x80 0x8F)
  else none

/-- One byte further; the error is the length of the sequence that went wrong. -/
def Utf8State.step : Utf8State → UInt8 → Except Nat Utf8State
  | .boundary, b =>
    match ofLead? b.toNat with
    | some next => .ok next
    | none => .error 1
  | .inside seen left low high, b =>
    if b.toNat < low ∨ high < b.toNat then .error seen
    else if left ≤ 1 then .ok .boundary
    else .ok (.inside (seen + 1) (left - 1) 0x80 0xBF)

/-- The bytes of the unfinished character that a state holds. -/
def Utf8State.pending : Utf8State → Nat
  | .boundary => 0
  | .inside seen _ _ _ => seen

/-- The first fault in `bytes`, read from `state` after `index` bytes. -/
def scanUtf8 : Utf8State → Nat → List UInt8 → Option Utf8Fault
  | .boundary, _, [] => none
  | state, index, [] => some ⟨index - state.pending, none⟩
  | state, index, b :: rest =>
    match state.step b with
    | .ok next => scanUtf8 next (index + 1) rest
    | .error bad => some ⟨index - state.pending, some bad⟩

/-- The text that a byte string is, or the first fault in it. -/
def decodeUtf8 (bytes : ByteArray) : Except Utf8Fault String :=
  match String.fromUTF8? bytes with
  | some text => .ok text
  | none => .error ((scanUtf8 .boundary 0 bytes.data.toList).getD ⟨0, none⟩)

def Utf8Fault.message (fault : Utf8Fault) : String :=
  match fault.badLength with
  | some n =>
    "invalid utf-8 sequence of " ++ toString n ++ " bytes from index " ++ toString fault.validLength
  | none => "incomplete utf-8 byte sequence from index " ++ toString fault.validLength

example : scanUtf8 .boundary 0 [0x61, 0xE6, 0xBC, 0xA2] = none := by decide
example : scanUtf8 .boundary 0 [0x61, 0xED, 0xA0, 0x80] = some ⟨1, some 1⟩ := by decide
example : scanUtf8 .boundary 0 [0xF0, 0x9F, 0x98] = some ⟨0, none⟩ := by decide
example : scanUtf8 .boundary 0 [0xF0, 0x9F, 0x98, 0x41] = some ⟨0, some 3⟩ := by decide

end DocumentClient.Text
