import DocumentClient.Proofs.Message.Pieces
import DocumentClient.Proofs.Wire.Framing

/-!
# Documents added to other bytes

Messages are put together from documents that are added to a buffer. A writer learns late that a document
cannot be written, when tags, names and whole elements are out already. So it does not write into the buffer
but into what is split off behind it, and a document that fails is given up with all that was written of it.

* `Document.appendAll docs buffer`: documents are added one after another, and a failure ends its own call only.

Results:
1. `Write.document_ofBytes`: a writer in the buffer itself would do behind its bytes what it does alone.
2. `Document.appendTo_eq`: a document is added as a whole or not at all.
3. `Document.appendAll_atomic`: so it is for documents one after another; induction on the documents.
-/

namespace DocumentClient

open Outcome

/-! ## A writer in the buffer itself -/

namespace Write

/-- The same end of a step, with bytes in front of the writer that it leaves. -/
def endBehind (front : ByteArray) : EStateM.Result Fault Writer Unit → EStateM.Result Fault Writer Unit
  | .ok _ w => .ok () (w.behind front)
  | .error fault w => .error fault (w.behind front)

/-- A writer that goes on behind other bytes leaves them as they are and writes what it would write alone. -/
theorem document_ofBytes (doc : Document) (front : ByteArray) :
    document doc (.ofBytes front) = endBehind front (document doc {}) := by
  have framed : Framed (document doc) := framed_documentOf (framed_fields doc.fields)
  rw [← Writer.behind_ofBytes, framed front]
  cases document doc {} <;> rfl

end Write

/-! ## Documents one after another -/

namespace Document

/-- A document is added as a whole or, if it cannot be encoded, not at all. -/
theorem appendTo_eq (doc : Document) (buffer : ByteArray) :
    doc.appendTo buffer =
      match doc.encode with
      | .ok bytes => .ok () (buffer ++ bytes)
      | .error fault => .error fault buffer := by
  have kept : buffer.extract 0 buffer.size = buffer := ByteArray.extract_zero_size
  have rest : Writer.ofBytes (buffer.extract buffer.size buffer.size) = {} :=
    congrArg Writer.ofBytes ByteArray.extract_same
  unfold appendTo encode Write.alone
  dsimp only
  rw [kept, rest]
  cases Write.document doc {} with
  | error fault w => rfl
  | ok u w =>
    dsimp only
    cases w.finish <;> rfl

/-- The documents are added one after another: how each call ends, and the buffer behind the last one. -/
def appendAll : List Document → ByteArray → List (Except Fault Unit) × ByteArray
  | [], buffer => ([], buffer)
  | doc :: docs, buffer =>
    match doc.appendTo buffer with
    | .ok _ longer => (appendAll docs longer).map (.ok () :: ·) id
    | .error fault left => (appendAll docs left).map (.error fault :: ·) id

/-- Each of the documents is added as a whole or not at all. A call ends as the encoding of its document does,
whatever calls came before it, and the buffer behind the last call is the first one with the bytes of the
documents that could be encoded. No call would end otherwise if its writer started in the buffer itself. -/
theorem appendAll_atomic :
    (∀ (docs : List Document) (buffer : ByteArray),
      appendAll docs buffer =
        (docs.map fun doc => doc.encode.map fun _ => (),
          buffer ++ joined (docs.filterMap fun doc => doc.encode.toOption))) ∧
    ∀ (doc : Document) (buffer : ByteArray),
      Write.document doc (.ofBytes buffer) = Write.endBehind buffer (Write.document doc {}) := by
  refine ⟨fun docs buffer => ?_, Write.document_ofBytes⟩
  induction docs generalizing buffer with
  | nil => simp [appendAll]
  | cons doc docs ih =>
    rw [appendAll, appendTo_eq]
    cases encoded : doc.encode with
    | ok bytes => simp [ih, encoded, Except.map, Except.toOption, ByteArray.append_assoc]
    | error fault => simp [ih, encoded, Except.map, Except.toOption]

/-- The second document fails at its second field, when its first one is written. -/
example : left (Write.document ⟨[("b", .null), ("c\x00", .null)]⟩) {} =
      ⟨.empty, [⟨⟨#[10, 98, 0]⟩, none⟩], .name, none⟩ ∧
    appendAll [⟨[("a", .null)]⟩, ⟨[("b", .null), ("c\x00", .null)]⟩, ⟨[]⟩] ⟨#[255]⟩ =
      ([.ok (), .error (.malformed (.zeroInName "c\x00")), .ok ()],
        ⟨#[255, 8, 0, 0, 0, 10, 97, 0, 0, 5, 0, 0, 0, 0]⟩) := by
  constructor <;> cbv

end Document

end DocumentClient
