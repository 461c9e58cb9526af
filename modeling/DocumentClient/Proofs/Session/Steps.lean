import DocumentClient.Proofs.Session.Exchange

/-!
# What a cursor does

Everything that touches the channel of a cursor is one of three things. A request, the first one or one
for more, is an answer that the conversation goes on with and that the cursor then takes; closing gives
the cursor up if the server still knows it, and then the channel; failing gives only the channel back.

Results:
1. `Plan.firstBatch_eq_ok_iff`, `Plan.firstBatch_eq_error_iff`: the first request.
2. `Cursor.fetch_eq_ok_iff`, `Cursor.fetch_eq_error_iff`: a request for more.
3. `Session.close_of_released`, `Session.close_of_held`: closing.
-/

namespace DocumentClient

open Outcome

/-! ## The first request -/

namespace Plan

variable {shape : Shape} {plan : Plan shape} {server : Server} {cursor : Cursor shape}
  {c c' : Conversation}

/-- Asks for the first results and reads them. -/
def firstAnswer (plan : Plan shape) (server : Server) : Talk (Reply × List shape.Carrier) := do
  Talk.proceed
  let id ← Talk.newId
  let request := plan.request server id
  modify (·.notify (.running plan.collection server request plan.limit plan.batchSize))
  let reply ← Talk.ask (.query request) id plan.timeout
  let values ← Talk.values reply plan.codec plan.registry
  return (reply, values)

/-- What the first request shows. -/
def FirstSeen (plan : Plan shape) (server : Server) (e : Event) : Prop :=
  ∃ id, Event.Serves (.query (plan.request server id)) id plan.timeout e

theorem modest_firstAnswer (plan : Plan shape) (server : Server) :
    (plan.firstAnswer server).Modest (plan.FirstSeen server) := by
  refine .bind .proceed fun _ => .bind .newId fun id => ?_
  refine .bind (.notify _) fun _ => ?_
  refine .bind ((Talk.Modest.ask _ _ _).mono fun e serves => ⟨id, serves⟩) fun reply => ?_
  exact .bind (.values _ _ _) fun values => .pure _

theorem firstBatch_eq (plan : Plan shape) (server : Server) :
    plan.firstBatch server =
      plan.firstAnswer server >>= fun p => pure (plan.cursor p.1.cursorId p.2) := by
  unfold firstBatch firstAnswer
  simp only [bind_assoc, pure_bind]

/-- The first request succeeds iff it is answered, and the cursor starts with the answer. -/
theorem firstBatch_eq_ok_iff :
    plan.firstBatch server c = .ok cursor c' ↔ ∃ reply values,
      plan.firstAnswer server c = .ok (reply, values) c' ∧
        plan.cursor reply.cursorId values = cursor := by
  rw [firstBatch_eq, bind_eq_ok_iff]
  constructor
  · rintro ⟨⟨reply, values⟩, m, answered, h⟩
    obtain ⟨rfl, rfl⟩ := pure_eq_ok_iff.mp h
    exact ⟨reply, values, answered, rfl⟩
  · rintro ⟨reply, values, answered, rfl⟩
    exact ⟨(reply, values), c', answered, rfl⟩

/-- The first request fails iff its answer fails. -/
theorem firstBatch_eq_error_iff {failure : Failure} :
    plan.firstBatch server c = .error failure c' ↔
      plan.firstAnswer server c = .error failure c' := by
  rw [firstBatch_eq, bind_eq_error_iff]
  constructor
  · rintro (h | ⟨p, m, answered, h⟩)
    · exact h
    · cases h
  · exact .inl

end Plan

/-! ## Requests for more -/

namespace Cursor

variable {shape : Shape} {cursor cursor' : Cursor shape} {c c' : Conversation}

/-- Asks for the next results and reads them. -/
def answer (cursor : Cursor shape) : Talk (Reply × List shape.Carrier) := do
  Talk.proceed
  discard Talk.held
  let id ← Talk.newId
  let reply ← Talk.ask (.more (cursor.moreRequest id)) id cursor.timeout
  let values ← Talk.values reply cursor.codec cursor.registry
  return (reply, values)

/-- The cursor after a reply. -/
def extended (cursor : Cursor shape) (reply : Reply) (values : List shape.Carrier) :
    Cursor shape :=
  { cursor with
    id := reply.cursorId
    batch := cursor.batch ++ values
    closed := cursor.closed || reply.cursorId = 0 }

/-- The conversation after a reply: the channel goes back if the server has no more results. -/
def accepted (cursor : Cursor shape) (reply : Reply) (values : List shape.Carrier)
    (c : Conversation) : Conversation :=
  let c := c.notify (.fetched cursor.id (Int32.ofNat cursor.nextFetchSize) values.length)
  if reply.cursorId = 0 then c.release else c

/-- What a request for more shows. -/
def FetchSeen (cursor : Cursor shape) (e : Event) : Prop :=
  ∃ id, Event.Serves (.more (cursor.moreRequest id)) id cursor.timeout e

theorem modest_answer (cursor : Cursor shape) : cursor.answer.Modest cursor.FetchSeen := by
  refine .bind .proceed fun _ => ?_
  refine .bind (.bind .held fun _ => .pure _) fun _ => ?_
  refine .bind .newId fun id => ?_
  refine .bind ((Talk.Modest.ask _ _ _).mono fun e serves => ⟨id, serves⟩) fun reply => ?_
  exact .bind (.values _ _ _) fun values => .pure _

/-- Takes what has arrived. -/
def accept (cursor : Cursor shape) (reply : Reply) (values : List shape.Carrier) :
    Talk (Cursor shape) := fun c =>
  .ok (cursor.extended reply values) (cursor.accepted reply values c)

theorem fetch_eq (cursor : Cursor shape) :
    cursor.fetch = cursor.answer >>= fun p => cursor.accept p.1 p.2 := by
  unfold fetch answer
  simp only [bind_assoc, pure_bind]
  refine bind_congr fun _ => bind_congr fun _ => bind_congr fun id => ?_
  refine bind_congr fun reply => bind_congr fun values => ?_
  -- both sides take what has arrived; only how they write the cursor down differs
  funext c
  by_cases last : reply.cursorId = 0
  · rw [if_pos last]
    simp only [accept, extended, accepted, last, decide_true, Bool.or_true, if_true]
    rw [← last]
    rfl
  · rw [if_neg last]
    simp only [accept, extended, accepted, last, decide_false, Bool.or_false, if_false]
    rfl

/-- An answer has used a delivery up. -/
theorem pending_of_answer {p : Reply × List shape.Carrier} (h : cursor.answer c = .ok p c') :
    c'.pending < c.pending := by
  obtain ⟨⟨⟩, m₁, proceeds, h⟩ := bind_eq_ok_iff.mp h
  obtain ⟨channel, m₂, found, h⟩ := bind_eq_ok_iff.mp h
  obtain ⟨id, m₃, numbered, h⟩ := bind_eq_ok_iff.mp h
  obtain ⟨reply, m₄, asked, h⟩ := bind_eq_ok_iff.mp h
  obtain ⟨values, m₅, read, h⟩ := bind_eq_ok_iff.mp h
  obtain ⟨-, rfl⟩ := pure_eq_ok_iff.mp h
  have proceeding : Talk.proceed.Modest cursor.FetchSeen := .proceed
  have holding : (discard Talk.held).Modest cursor.FetchSeen := .bind .held fun _ => .pure _
  have numbering : Talk.newId.Modest cursor.FetchSeen := .newId
  have reading : (Talk.values reply cursor.codec cursor.registry).Modest cursor.FetchSeen :=
    .values _ _ _
  calc m₅.pending
    _ ≤ m₄.pending := (reading.ok read).pending
    _ < m₃.pending := Talk.pending_of_ask asked
    _ ≤ m₂.pending := (numbering.ok numbered).pending
    _ ≤ m₁.pending := (holding.ok found).pending
    _ ≤ c.pending := (proceeding.ok proceeds).pending

/-- A fetch that succeeds is an answer, and the cursor takes what has arrived. -/
theorem fetch_eq_ok_iff :
    cursor.fetch c = .ok cursor' c' ↔ ∃ reply values m,
      cursor.answer c = .ok (reply, values) m ∧ cursor.extended reply values = cursor' ∧
        cursor.accepted reply values m = c' := by
  rw [fetch_eq, bind_eq_ok_iff]
  constructor
  · rintro ⟨⟨reply, values⟩, m, answered, h⟩
    cases h
    exact ⟨reply, values, m, answered, rfl, rfl⟩
  · rintro ⟨reply, values, m, answered, rfl, rfl⟩
    exact ⟨(reply, values), m, answered, rfl⟩

theorem pending_accepted_le (reply : Reply) (values : List shape.Carrier) :
    (cursor.accepted reply values c).pending ≤ c.pending := by
  unfold accepted
  dsimp only
  split
  · simp [Conversation.pending]
  · exact Nat.le_refl _

theorem reports_of_accepted {reply : Reply} {values : List shape.Carrier} {failure : Failure}
    (h : (cursor.accepted reply values c).Reports failure) : c.Reports failure := by
  obtain ⟨channel, held, reports⟩ := h
  unfold accepted at held
  dsimp only at held
  split at held
  · rw [Conversation.channel_release] at held
    cases held
  · exact ⟨channel, held, reports⟩

/-- So a fetch that succeeds has used a delivery up. -/
theorem pending_of_fetch (h : cursor.fetch c = .ok cursor' c') : c'.pending < c.pending := by
  obtain ⟨reply, values, m, answered, -, rfl⟩ := fetch_eq_ok_iff.mp h
  exact Nat.lt_of_le_of_lt (pending_accepted_le reply values) (pending_of_answer answered)

/-- A fetch that fails is an answer that fails. -/
theorem fetch_eq_error_iff {failure : Failure} :
    cursor.fetch c = .error failure c' ↔ cursor.answer c = .error failure c' := by
  rw [fetch_eq, bind_eq_error_iff]
  constructor
  · rintro (h | ⟨p, m, answered, h⟩)
    · exact h
    · cases h
  · exact .inl

end Cursor

/-! ## Closing -/

namespace Cursor

variable {shape : Shape} {cursor : Cursor shape} {c : Conversation}

/-- Giving up a cursor that the server still knows shows the message that says so; whether it goes
through does not matter. -/
theorem giveUp_of_held {channel : Channel} (held : c.channel = some channel) (known : cursor.id ≠ 0) :
    ∃ message, Request.encode (.kill ⟨c.nextId, [cursor.id]⟩) = .ok message ∧
      (cursor.giveUp c).channel.isSome ∧
      (cursor.giveUp c).events = @Event.send .own message cursor.timeout :: c.events := by
  obtain ⟨message, encoded⟩ := Request.exists_encode_kill c.nextId cursor.id
  refine ⟨message, encoded, ?_⟩
  have killing : cursor.kill c =
      Talk.post .own message cursor.timeout { c with nextId := c.nextId + 1 } := by
    unfold kill
    rw [bind_of_ok (rfl : Talk.newId c = .ok c.nextId _),
      bind_of_ok (Talk.ofExcept_eq_ok_iff.mpr ⟨encoded, rfl⟩)]
    exact Talk.send_of_live (Conversation.isCancelled_own _) message cursor.timeout
  unfold giveUp
  rw [if_neg known, killing]
  rcases Talk.post_of_held (c := { c with nextId := c.nextId + 1 }) held .own message cursor.timeout
    with fine | ⟨failure, -, failed⟩
  · rw [fine]
    exact ⟨rfl, rfl⟩
  · rw [failed]
    exact ⟨rfl, rfl⟩

end Cursor

namespace Conversation

theorem events_release_of_held {c : Conversation} (held : c.channel.isSome) :
    c.release.events = .release :: c.events := by
  unfold release
  cases hc : c.channel with
  | none =>
    rw [hc] at held
    cases held
  | some channel => rfl

end Conversation

namespace Session

variable {shape : Shape} {s : Session shape}

theorem channel_close (s : Session shape) : s.close.talk.channel = none := by
  unfold close
  cases hc : s.talk.channel with
  | none => exact hc
  | some channel => exact Conversation.channel_release _

/-- Closing once the channel has gone back changes nothing that others see. -/
theorem close_of_released (released : s.talk.channel = none) : s.close.talk = s.talk := by
  unfold close
  rw [released]

/-- Closing while the channel is held gives the cursor up, and then the channel. -/
theorem close_of_held (held : s.talk.channel.isSome) (known : s.cursor.id ≠ 0) :
    ∃ id message, Request.encode (.kill ⟨id, [s.cursor.id]⟩) = .ok message ∧
      s.close.talk.events = .release :: @Event.send .own message s.cursor.timeout :: s.talk.events := by
  obtain ⟨channel, hc⟩ := Option.isSome_iff_exists.mp held
  obtain ⟨message, encoded, still, events⟩ := s.cursor.giveUp_of_held hc known
  refine ⟨_, message, encoded, ?_⟩
  unfold close
  rw [hc, ← events]
  exact Conversation.events_release_of_held still

end Session

end DocumentClient
