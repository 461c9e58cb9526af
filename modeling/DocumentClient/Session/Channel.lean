import DocumentClient.Message.Reply
import DocumentClient.Session.Notice

/-!
# Talking to a server

A channel carries messages to one server and replies back. What it will do is part of its value: the
outcomes of the sends to come and the deliveries to come, each of which is either bytes or a failure.

A `Conversation` is the state of one operation: the channel while it is held, whether the caller has
cancelled, the number of the next request, and what an observer has seen. `Talk` is a state monad whose
failures keep the conversation.

* `Talk.send` refuses to send under a token that is cancelled, and records the token.
* `Talk.receive` refuses to wait for a caller who has cancelled.
* `Talk.ask` sends a request and accepts only a reply to this very request that reports success.
* `Conversation.release` gives the channel back.
-/

namespace DocumentClient

/-- What comes when a reply is waited for. -/
structure Delivery where
  /-- Whether the caller cancels while waiting. -/
  cancels : Bool := false
  /-- What arrives in answer to the request with a number. -/
  answer : Int32 → Except Failure ByteArray

structure Channel where
  server : Server
  /-- The outcomes of the sends to come; later ones succeed. -/
  sends : List (Option Failure) := []
  deliveries : List Delivery := []
  /-- How waiting fails when everything has arrived. -/
  silence : Failure

structure Conversation where
  /-- The channel while it is held. -/
  channel : Option Channel := none
  cancelled : Bool := false
  /-- The number of the next request. -/
  nextId : Int32 := 1
  /-- What has happened, the last first. -/
  events : List Event := []
  /-- What was logged, the last first. -/
  notices : List Notice := []

namespace Conversation

def record (c : Conversation) (event : Event) : Conversation :=
  { c with events := event :: c.events }

def notify (c : Conversation) (notice : Notice) : Conversation :=
  { c with notices := notice :: c.notices }

/-- Gives the channel back, if it is held. -/
def release (c : Conversation) : Conversation :=
  match c.channel with
  | none => c
  | some _ => { c with channel := none }.record .release

@[simp] theorem channel_release (c : Conversation) : c.release.channel = none := by
  unfold release
  split <;> simp_all [record]

/-- The tokens of the operation before any is made for a message: the token of the caller. -/
def tokens (c : Conversation) : Tokens := ⟨[c.cancelled], [0]⟩

def isCancelled (c : Conversation) : Token → Bool
  | .caller => c.tokens.isCancelled 0
  | .own => c.tokens.fresh.isCancelled 1

/-- The number of deliveries that may still arrive. -/
def pending (c : Conversation) : Nat :=
  (c.channel.map fun channel => channel.deliveries.length).getD 0

end Conversation

/-- Talking to a server may fail, and a failure keeps the conversation. -/
abbrev Talk := EStateM Failure Conversation

namespace Talk

/-- Goes on with a result, or fails with its failure. -/
def ofExcept {α : Type} (result : Except Failure α) : Talk α := fun c =>
  match result with
  | .ok a => .ok a c
  | .error failure => .error failure c

/-- Fails if a token is cancelled. -/
def check (token : Token) : Talk Unit := fun c => ofExcept (checkCancelled (c.isCancelled token)) c

/-- Fails if the caller has cancelled. -/
def proceed : Talk Unit := check .caller

def newId : Talk Int32 := fun c =>
  .ok c.nextId { c with nextId := c.nextId + 1 }

/-- The channel, which must be held. -/
def held : Talk Channel := fun c =>
  match c.channel with
  | some channel => .ok channel c
  | none => .error .channelReleased c

/-- Hands a message to the channel, whatever the token tells. -/
def post (token : Token) (message : ByteArray) (timeout : Option UInt64) : Talk Unit := do
  let channel ← held
  modify fun c =>
    { c with channel := some { channel with sends := channel.sends.tail } }.record
      (@Event.send token message timeout)
  match channel.sends with
  | some failure :: _ => throw failure
  | _ => return

def send (token : Token) (message : ByteArray) (timeout : Option UInt64) : Talk Unit := do
  check token
  post token message timeout

/-- Waits for what arrives in answer to a request. -/
def receive (id : Int32) (timeout : Option UInt64) : Talk ByteArray := do
  proceed
  let channel ← held
  modify (·.record (.receive id timeout))
  match channel.deliveries with
  | [] => throw channel.silence
  | delivery :: rest =>
    modify fun c =>
      { c with
        channel := some { channel with deliveries := rest }
        cancelled := c.cancelled || delivery.cancels }
    ofExcept (delivery.answer id)

/-- Sends a request and waits for the reply to it. -/
def ask (request : Request) (id : Int32) (timeout : Option UInt64) : Talk Reply := do
  send .caller (← ofExcept request.encode) timeout
  let reply ← ofExcept (Reply.decode (← receive id timeout))
  ofExcept (reply.check id)
  return reply

def values {shape : Shape} (reply : Reply) (codec : Codec shape) (registry : Registry) :
    Talk (List shape.Carrier) :=
  match reply.values codec registry with
  | .ok values _ => return values
  | .error fault _ => throw (.wire fault)

end Talk

end DocumentClient
