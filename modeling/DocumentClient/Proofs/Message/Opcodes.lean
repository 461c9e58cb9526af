import DocumentClient.Message.Request
import DocumentClient.Proofs.Outcome

/-!
# Telling messages apart

The kind of a message stands in the last word of its header, so whoever sees a message go by can tell
what is asked for without reading its body.

Results:
1. `opcodeWord_message`: a message shows the opcode it was made with.
2. `Request.opcodeWord_encode`: the message of a request shows the opcode of the request.
3. `Request.exists_encode_kill`: giving up one cursor always makes a message.
-/

namespace DocumentClient

open Outcome

/-- The last word of the header of a message. -/
def opcodeWord (message : ByteArray) : Int32 :=
  Bytes.toInt32 (message.extract 12 16)

theorem Opcode.number_injective {a b : Opcode} (h : a.number = b.number) : a = b := by
  have same : ofNumber a.number = ofNumber b.number := by rw [h]
  rw [ofNumber_number, ofNumber_number] at same
  exact Except.ok.inj same

theorem size_ofInt32 (v : Int32) : (Bytes.ofInt32 v).size = 4 :=
  Bytes.size_numeral _ _

theorem size_ofInt64 (v : Int64) : (Bytes.ofInt64 v).size = 8 :=
  Bytes.size_numeral _ _

/-- What lies between two byte strings. -/
theorem extract_between {front middle rest : ByteArray} {i j : Nat} (hi : i = front.size)
    (hj : j = front.size + middle.size) : (front ++ middle ++ rest).extract i j = middle := by
  subst hi hj
  rw [ByteArray.extract_append, ByteArray.extract_append_eq_right rfl rfl,
    ByteArray.size_append, Nat.sub_self, Nat.sub_eq_zero_of_le (Nat.le_add_right _ _),
    ByteArray.extract_same, ByteArray.append_empty]

/-- A message shows the opcode that it was made with. -/
theorem opcodeWord_message {opcode : Opcode} {id responseTo : Int32} {body m : ByteArray}
    (h : message opcode id responseTo body = .ok m) : opcodeWord m = opcode.number := by
  unfold message at h
  dsimp only at h
  split at h
  · cases h
  · cases h
    unfold opcodeWord Header.toBytes
    rw [extract_between, Bytes.toInt32_ofInt32]
    · simp [size_ofInt32]
    · simp [size_ofInt32]

namespace Request

/-- The opcode of the message of a request. -/
def opcode : Request → Opcode
  | query _ => .query
  | more _ => .getMore
  | kill _ => .killCursors

/-- The message of a request shows the opcode of the request. -/
theorem opcodeWord_encode {request : Request} {m : ByteArray} (h : request.encode = .ok m) :
    opcodeWord m = request.opcode.number := by
  cases request with
  | query q =>
    unfold encode at h
    obtain ⟨collection, -, h⟩ := exceptBind_eq_ok_iff.mp h
    obtain ⟨query, -, h⟩ := exceptBind_eq_ok_iff.mp h
    dsimp only at h
    cases hp : q.projection with
    | none =>
      rw [hp] at h
      exact opcodeWord_message h
    | some fields =>
      rw [hp] at h
      obtain ⟨projection, -, h⟩ := exceptBind_eq_ok_iff.mp h
      exact opcodeWord_message h
  | more r =>
    unfold encode at h
    obtain ⟨collection, -, h⟩ := exceptBind_eq_ok_iff.mp h
    exact opcodeWord_message h
  | kill k => exact opcodeWord_message h

/-- Giving up one cursor always makes a message. -/
theorem exists_encode_kill (id : Int32) (cursorId : Int64) :
    ∃ m, Request.encode (.kill ⟨id, [cursorId]⟩) = .ok m := by
  unfold encode message
  dsimp only
  rw [if_neg]
  · exact ⟨_, rfl⟩
  · simp [reserved, size_ofInt32, size_ofInt64, headerSize, maxMessageSize]

end Request

end DocumentClient
