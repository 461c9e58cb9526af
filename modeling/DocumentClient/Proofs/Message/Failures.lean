import DocumentClient.Message.Reply
import DocumentClient.Message.Request

/-!
# What writing requests and reading replies can fail with

A failure tells where it comes from: a fault of the format, a breach of the conversation and a bad
argument come from the messages themselves, every other failure from outside. Whoever talks over a
channel needs to know that the messages never claim what only the channel can report.

Results:
1. `Request.failsInMessage_encode`: a request that cannot be written is at fault itself.
2. `Reply.failsInMessage_decode`, `Reply.failsInMessage_check`: so are bytes that are no reply, and
   a reply that is not accepted.
-/

namespace DocumentClient

/-- The failures that the contents of messages give rise to. -/
def Failure.InMessage : Failure → Prop
  | .wire _ | .protocol _ | .argument _ => True
  | _ => False

/-- Whatever goes wrong, the contents of a message are at fault. -/
def FailsInMessage {α : Type} (result : Except Failure α) : Prop :=
  ∀ failure, result = .error failure → failure.InMessage

namespace FailsInMessage

variable {α β : Type}

theorem ok (a : α) : FailsInMessage (.ok a) := by
  intro failure h
  cases h

theorem error {failure : Failure} (h : failure.InMessage) :
    FailsInMessage (.error failure : Except Failure α) := by
  intro other eq
  cases eq
  exact h

theorem bind {x : Except Failure α} {f : α → Except Failure β} (first : FailsInMessage x)
    (rest : ∀ a, FailsInMessage (f a)) : FailsInMessage (x >>= f) := by
  cases x with
  | error failure => exact error (first failure rfl)
  | ok a => exact rest a

/-- A check that throws before the rest. -/
theorem guard {c : Prop} [Decidable c] {failure : Failure} {f : PUnit → Except Failure α}
    {rest : Except Failure α} (h : failure.InMessage) (hr : FailsInMessage rest) :
    FailsInMessage (if c then throw failure >>= f else rest) := by
  by_cases hc : c
  · rw [if_pos hc]
    exact error h
  · rw [if_neg hc]
    exact hr

theorem ofFault (result : Except Fault α) : FailsInMessage (Pieces.ofFault result) := by
  cases result with
  | error fault => exact error trivial
  | ok a => exact ok a

end FailsInMessage

/-- The same of pieces taken from whatever body. -/
def Pieces.FailsInMessage {α : Type} (pieces : Pieces α) : Prop :=
  ∀ b, DocumentClient.FailsInMessage (pieces b)

namespace Pieces.FailsInMessage

variable {α β : Type}

theorem pure (a : α) : Pieces.FailsInMessage (Pure.pure a) :=
  fun _ => .ok _

theorem bind {p : Pieces α} {f : α → Pieces β} (first : p.FailsInMessage)
    (rest : ∀ a, (f a).FailsInMessage) : (p >>= f).FailsInMessage :=
  fun b => (first b).bind fun ⟨a, b⟩ => rest a b

theorem lift {result : Except Failure α} (h : DocumentClient.FailsInMessage result) :
    Pieces.FailsInMessage (monadLift result) :=
  fun _ => h.bind fun _ => .ok _

theorem get : Pieces.FailsInMessage MonadState.get :=
  fun _ => .ok _

theorem guard {c : Prop} [Decidable c] {failure : Failure} {f : PUnit → Pieces α}
    {rest : Pieces α} (h : failure.InMessage) (hr : rest.FailsInMessage) :
    Pieces.FailsInMessage (if c then throw failure >>= f else rest) := by
  by_cases hc : c
  · rw [if_pos hc]
    exact fun _ => .error h
  · rw [if_neg hc]
    exact hr

end Pieces.FailsInMessage

/-! ## Requests -/

theorem failsInMessage_message (opcode : Opcode) (id responseTo : Int32) (body : ByteArray) :
    FailsInMessage (message opcode id responseTo body) := by
  unfold message
  dsimp only
  split
  · exact .error trivial
  · exact .ok _

theorem failsInMessage_collectionBytes (name : String) : FailsInMessage (collectionBytes name) := by
  unfold collectionBytes
  split
  · exact .error trivial
  · exact .ok _

namespace Request

/-- A request that cannot be written is at fault itself. -/
theorem failsInMessage_encode (request : Request) : FailsInMessage request.encode := by
  cases request with
  | query q =>
    refine .bind (failsInMessage_collectionBytes _) fun collection => ?_
    refine .bind (.ofFault _) fun query => ?_
    dsimp only
    cases q.projection with
    | none => exact failsInMessage_message _ _ _ _
    | some fields => exact .bind (.ofFault _) fun projection => failsInMessage_message _ _ _ _
  | more m =>
    exact .bind (failsInMessage_collectionBytes _) fun collection => failsInMessage_message _ _ _ _
  | kill k => exact failsInMessage_message _ _ _ _

end Request

/-! ## Replies -/

theorem failsInMessage_ofBytes (data : ByteArray) : FailsInMessage (Header.ofBytes data) := by
  refine .guard trivial (.bind ?_ fun opcode => .guard trivial (.ok _))
  unfold Opcode.ofNumber
  split
  · exact .ok _
  · exact .error trivial

theorem Pieces.failsInMessage_take (n : Nat) (what : String) : (Pieces.take n what).FailsInMessage := by
  intro b
  unfold Pieces.take
  split
  · exact .error trivial
  · exact .ok _

theorem Pieces.failsInMessage_documentSize : Pieces.documentSize.FailsInMessage :=
  .bind .get fun _ => .lift (.ofFault _)

namespace Reply

theorem failsInMessage_rawDocument : rawDocument.FailsInMessage :=
  .bind Pieces.failsInMessage_documentSize fun _ =>
    .bind .get fun _ => .guard trivial (Pieces.failsInMessage_take _ _)

theorem failsInMessage_rawDocuments (fuel : Nat) :
    ∀ docs, (rawDocuments fuel docs).FailsInMessage := by
  induction fuel with
  | zero => exact fun docs => .pure _
  | succ fuel ih =>
    intro docs
    refine .bind (.bind .get fun _ => .pure _) fun finished => ?_
    split
    · exact .pure _
    · exact .bind failsInMessage_rawDocument fun raw => ih _

theorem failsInMessage_pieces (header : Header) : (pieces header).FailsInMessage :=
  .bind (Pieces.failsInMessage_take _ _) fun _ =>
    .bind .get fun _ =>
      .bind (failsInMessage_rawDocuments _ _) fun _ => .guard trivial (.pure _)

/-- Bytes that are no reply are at fault themselves. -/
theorem failsInMessage_decode (data : ByteArray) : FailsInMessage (decode data) :=
  .bind (failsInMessage_ofBytes data) fun _ =>
    .guard trivial (.bind (failsInMessage_pieces _ _) fun _ => .ok _)

theorem failsInMessage_failureReason (documents : List ByteArray) :
    FailsInMessage (failureReason documents) := by
  unfold failureReason
  cases documents with
  | nil => exact .ok _
  | cons raw rest =>
    refine .bind (.ofFault _) fun doc => ?_
    split
    · exact .ok _
    · exact .ok _

/-- A reply that is not accepted is at fault itself. -/
theorem failsInMessage_check (reply : Reply) (id : Int32) : FailsInMessage (reply.check id) := by
  refine .guard trivial (.guard trivial ?_)
  split
  · exact .bind (failsInMessage_failureReason _) fun _ => .error trivial
  · exact .ok _

end Reply

end DocumentClient
