import DocumentClient.Proofs.Message.Failures
import DocumentClient.Proofs.Message.Opcodes
import DocumentClient.Session.Execute

/-!
# What talking to a server does to a conversation

While a request is made the channel is only used: it stays held, what it will report can only become
less, and what an observer sees is the request and the wait for its reply. `Modest` says so of any way
to talk. A failure on the way is explained by the messages, by the caller who has cancelled, by the
channel, or by there being no channel at all.

Results:
1. `Talk.Modest.ask`: asking is modest, and shows nothing but the request and the wait.
2. `Talk.of_ask_eq_ok`: a request that is answered, from its message to the delivery.
3. `Talk.pending_of_ask`: a reply that is accepted uses a delivery up.
-/

namespace DocumentClient

open Outcome

/-! ## Definitions -/

/-- The channel may still report a failure. -/
def Channel.Reports (channel : Channel) (failure : Failure) : Prop :=
  some failure ∈ channel.sends ∨ channel.silence = failure ∨
    ∃ delivery ∈ channel.deliveries, ∃ id, delivery.answer id = .error failure

namespace Conversation

/-- The channel is held and may still report a failure. -/
def Reports (c : Conversation) (failure : Failure) : Prop :=
  ∃ channel, c.channel = some channel ∧ channel.Reports failure

/-- A failure that is nobody's surprise. -/
inductive Explains (c : Conversation) : Failure → Prop
  | message {failure : Failure} (h : failure.InMessage) : Explains c failure
  | cancelled : Explains c .cancelled
  | released (h : c.channel = none) : Explains c .channelReleased
  | reported {failure : Failure} (h : c.Reports failure) : Explains c failure

/-- All that is seen from one moment to another meets a condition. -/
def Shows (seen : Event → Prop) (c c' : Conversation) : Prop :=
  ∃ more, c'.events = more ++ c.events ∧ ∀ e ∈ more, seen e

/-- The conversation goes on: the channel is only used, and all that is seen meets a condition. -/
structure Goes (seen : Event → Prop) (c c' : Conversation) : Prop where
  held : c.channel.isSome → c'.channel.isSome
  reports : ∀ failure, c'.Reports failure → c.Reports failure
  pending : c'.pending ≤ c.pending
  events : c.Shows seen c'

end Conversation

/-- How talking ends if it lets the conversation go on. -/
def Conversation.GoesTo {α : Type} (seen : Event → Prop) (c : Conversation) :
    EStateM.Result Failure Conversation α → Prop
  | .ok _ c' => c.Goes seen c'
  | .error failure c' => c.Goes seen c' ∧ c.Explains failure

/-- Talking that lets the conversation go on, whether it succeeds or fails. -/
def Talk.Modest {α : Type} (seen : Event → Prop) (talk : Talk α) : Prop :=
  ∀ c : Conversation, c.GoesTo seen (talk c)

/-- The request and the wait for its reply. -/
def Event.Serves (request : Request) (id : Int32) (timeout : Option UInt64) : Event → Prop
  | @Event.send token message t => token = .caller ∧ request.encode = .ok message ∧ t = timeout
  | .receive answered t => answered = id ∧ t = timeout
  | _ => False

/-! ## Tokens -/

/-- A token that has just been made is not cancelled, whatever has become of those before it. -/
theorem Tokens.isCancelled_fresh (tokens : Tokens) :
    tokens.fresh.isCancelled tokens.owners.length = false := by
  simp [fresh, isCancelled]

/-- A message that has a token of its own is not held up, whether the caller has cancelled or not. -/
theorem Conversation.isCancelled_own (c : Conversation) : c.isCancelled .own = false :=
  c.tokens.isCancelled_fresh

/-! ## Conversations that go on -/

namespace Conversation

variable {seen : Event → Prop} {c c' c'' : Conversation}

theorem not_reports {failure : Failure} (released : c.channel = none) : ¬ c.Reports failure := by
  intro h
  rcases h with ⟨channel, held, -⟩
  rw [released] at held
  cases held

theorem Shows.refl (c : Conversation) : c.Shows seen c :=
  ⟨[], rfl, nofun⟩

theorem Shows.trans (h : c.Shows seen c') (h' : c'.Shows seen c'') : c.Shows seen c'' := by
  obtain ⟨more, eq, all⟩ := h
  obtain ⟨more', eq', all'⟩ := h'
  refine ⟨more' ++ more, by rw [eq', eq, List.append_assoc], fun e mem => ?_⟩
  rcases List.mem_append.mp mem with mem | mem
  · exact all' e mem
  · exact all e mem

theorem Shows.mono {wider : Event → Prop} (h : c.Shows seen c') (le : ∀ e, seen e → wider e) :
    c.Shows wider c' := by
  obtain ⟨more, eq, all⟩ := h
  exact ⟨more, eq, fun e mem => le e (all e mem)⟩

/-- What was seen before is not lost. -/
theorem Shows.suffix {events : List Event} (h : c.Shows seen c') (before : events <:+ c.events) :
    events <:+ c'.events := by
  obtain ⟨more, eq, -⟩ := h
  rw [eq]
  exact before.trans (List.suffix_append more _)

theorem Goes.refl (c : Conversation) : c.Goes seen c where
  held := id
  reports _ := id
  pending := Nat.le_refl _
  events := .refl c

theorem Goes.trans (h : c.Goes seen c') (h' : c'.Goes seen c'') : c.Goes seen c'' where
  held := h'.held ∘ h.held
  reports failure := h.reports failure ∘ h'.reports failure
  pending := Nat.le_trans h'.pending h.pending
  events := h.events.trans h'.events

theorem Goes.mono {wider : Event → Prop} (h : c.Goes seen c') (le : ∀ e, seen e → wider e) :
    c.Goes wider c' where
  held := h.held
  reports := h.reports
  pending := h.pending
  events := h.events.mono le

/-- What explains a failure later explains it now. -/
theorem Goes.explains {failure : Failure} (h : c.Goes seen c') (why : c'.Explains failure) :
    c.Explains failure := by
  cases why with
  | message inMessage => exact .message inMessage
  | cancelled => exact .cancelled
  | reported reports => exact .reported (h.reports _ reports)
  | released none =>
    -- the channel stays held, so it was not held before either
    cases hc : c.channel with
    | none => exact .released hc
    | some channel =>
      have := h.held (by rw [hc]; rfl)
      rw [none] at this
      cases this

end Conversation

/-! ## Steps -/

namespace Talk

variable {α β : Type} {seen : Event → Prop} {c c' : Conversation}

theorem ofExcept_eq_ok_iff {result : Except Failure α} {a : α} :
    ofExcept result c = .ok a c' ↔ result = .ok a ∧ c = c' := by
  unfold ofExcept
  cases result <;> simp

theorem ofExcept_eq_error_iff {result : Except Failure α} {failure : Failure} :
    ofExcept result c = .error failure c' ↔ result = .error failure ∧ c = c' := by
  unfold ofExcept
  cases result <;> simp

theorem check_eq_ok_iff {token : Token} {u : Unit} :
    check token c = .ok u c' ↔ c.isCancelled token = false ∧ c = c' := by
  unfold check checkCancelled
  rw [ofExcept_eq_ok_iff]
  cases c.isCancelled token <;> simp

theorem check_eq_error_iff {token : Token} {failure : Failure} :
    check token c = .error failure c' ↔ c.isCancelled token = true ∧ .cancelled = failure ∧ c = c' := by
  unfold check checkCancelled
  rw [ofExcept_eq_error_iff]
  cases c.isCancelled token <;> simp

theorem proceed_eq_ok_iff {u : Unit} : proceed c = .ok u c' ↔ c.cancelled = false ∧ c = c' :=
  check_eq_ok_iff

theorem proceed_eq_error_iff {failure : Failure} :
    proceed c = .error failure c' ↔ c.cancelled = true ∧ .cancelled = failure ∧ c = c' :=
  check_eq_error_iff

namespace Modest

theorem ok {x : Talk α} {a : α} (h : x.Modest seen) (eq : x c = .ok a c') : c.Goes seen c' := by
  have ends := h c
  rw [eq] at ends
  exact ends

theorem error {x : Talk α} {failure : Failure} (h : x.Modest seen) (eq : x c = .error failure c') :
    c.Goes seen c' ∧ c.Explains failure := by
  have ends := h c
  rw [eq] at ends
  exact ends

theorem bind {x : Talk α} {f : α → Talk β} (first : x.Modest seen)
    (rest : ∀ a, (f a).Modest seen) : Talk.Modest seen (x >>= f) := by
  intro c
  cases hx : x c with
  | error failure m =>
    rw [bind_eq_error_iff.mpr (.inl hx)]
    exact first.error hx
  | ok a m =>
    have goes := first.ok hx
    rw [bind_of_ok hx]
    cases hf : f a m with
    | ok b t => exact goes.trans ((rest a).ok hf)
    | error failure t =>
      obtain ⟨goes', why⟩ := (rest a).error hf
      exact ⟨goes.trans goes', goes.explains why⟩

theorem mono {wider : Event → Prop} {x : Talk α} (h : x.Modest seen)
    (le : ∀ e, seen e → wider e) : x.Modest wider := by
  intro c
  cases hx : x c with
  | ok a t => exact (h.ok hx).mono le
  | error failure t => exact ⟨(h.error hx).1.mono le, (h.error hx).2⟩

theorem pure (a : α) : Talk.Modest seen (Pure.pure a) :=
  fun c => .refl c

theorem ofExcept {result : Except Failure α} (h : FailsInMessage result) :
    (Talk.ofExcept result).Modest seen := by
  intro c
  cases result with
  | ok a => exact .refl c
  | error failure => exact ⟨.refl c, .message (h failure rfl)⟩

/-- The rest may rely on the result being the one that was given. -/
theorem ofExcept_bind {result : Except Failure α} {f : α → Talk β} (h : FailsInMessage result)
    (rest : ∀ a, result = .ok a → (f a).Modest seen) :
    Talk.Modest seen (Talk.ofExcept result >>= f) := by
  cases result with
  | ok a => exact rest a rfl
  | error failure =>
    show Talk.Modest seen (Talk.ofExcept (.error failure : Except Failure β))
    exact .ofExcept (.error (h failure rfl))

theorem check (token : Token) : (Talk.check token).Modest seen := by
  intro c
  unfold Talk.check
  cases c.isCancelled token with
  | true => exact ⟨.refl c, .cancelled⟩
  | false => exact .refl c

theorem proceed : Talk.proceed.Modest seen := .check .caller

theorem notify (f : Conversation → Notice) :
    Talk.Modest seen (modify fun c => c.notify (f c)) :=
  fun c => ⟨id, fun _ => id, Nat.le_refl _, [], rfl, by simp⟩

theorem newId : Talk.newId.Modest seen :=
  fun c => ⟨id, fun _ => id, Nat.le_refl _, [], rfl, by simp⟩

theorem held : Talk.held.Modest seen := by
  intro c
  unfold Talk.held
  cases hc : c.channel with
  | none => exact ⟨.refl c, .released hc⟩
  | some channel => exact .refl c

end Modest

/-- The conversation after a message has been sent over a channel. -/
def sent (token : Token) (channel : Channel) (message : ByteArray) (timeout : Option UInt64)
    (c : Conversation) : Conversation :=
  { c with channel := some { channel with sends := channel.sends.tail } }.record
    (@Event.send token message timeout)

theorem send_of_live {token : Token} (live : c.isCancelled token = false) (message : ByteArray)
    (timeout : Option UInt64) : send token message timeout c = post token message timeout c := by
  have passes : check token c = .ok () c := check_eq_ok_iff.mpr ⟨live, rfl⟩
  unfold send
  rw [bind_of_ok passes]

theorem post_of_held {channel : Channel} (held : c.channel = some channel) (token : Token)
    (message : ByteArray) (timeout : Option UInt64) :
    (post token message timeout c = .ok () (sent token channel message timeout c)) ∨
      ∃ failure, some failure ∈ channel.sends ∧
        post token message timeout c = .error failure (sent token channel message timeout c) := by
  have holds : Talk.held c = .ok channel c := by unfold Talk.held; rw [held]
  unfold post
  rw [bind_of_ok holds]
  obtain ⟨server, sends, deliveries, silence⟩ := channel
  cases sends with
  | nil => exact .inl rfl
  | cons outcome rest =>
    cases outcome with
    | none => exact .inl rfl
    | some failure => exact .inr ⟨failure, List.mem_cons_self, rfl⟩

theorem post_of_released (released : c.channel = none) (token : Token) (message : ByteArray)
    (timeout : Option UInt64) : post token message timeout c = .error .channelReleased c := by
  unfold post
  exact bind_eq_error_iff.mpr (.inl (by unfold Talk.held; rw [released]))

theorem goes_sent {channel : Channel} (held : c.channel = some channel) {token : Token}
    {message : ByteArray} {timeout : Option UInt64} (h : seen (@Event.send token message timeout)) :
    c.Goes seen (sent token channel message timeout c) where
  held _ := rfl
  reports failure := by
    rintro ⟨channel', eq, reports⟩
    cases eq
    refine ⟨channel, held, ?_⟩
    rcases reports with mem | rest
    · exact .inl (List.mem_of_mem_tail mem)
    · exact .inr rest
  pending := by simp [sent, Conversation.record, Conversation.pending, held]
  events := ⟨[@Event.send token message timeout], rfl, by simpa using h⟩

namespace Modest

theorem post {token : Token} {message : ByteArray} {timeout : Option UInt64}
    (h : seen (@Event.send token message timeout)) : (Talk.post token message timeout).Modest seen := by
  intro c
  cases hc : c.channel with
  | none =>
    rw [post_of_released hc]
    exact ⟨.refl c, .released hc⟩
  | some channel =>
    rcases post_of_held hc token message timeout with fine | ⟨failure, mem, failed⟩
    · rw [fine]
      exact goes_sent hc h
    · rw [failed]
      exact ⟨goes_sent hc h, .reported ⟨channel, hc, .inl mem⟩⟩

theorem send {token : Token} {message : ByteArray} {timeout : Option UInt64}
    (h : seen (@Event.send token message timeout)) : (Talk.send token message timeout).Modest seen :=
  .bind (.check token) fun _ => .post h

end Modest

/-- The conversation after a delivery has arrived over a channel. -/
def arrived (channel : Channel) (delivery : Delivery) (rest : List Delivery) (id : Int32)
    (timeout : Option UInt64) (c : Conversation) : Conversation :=
  { c.record (.receive id timeout) with
    channel := some { channel with deliveries := rest }
    cancelled := c.cancelled || delivery.cancels }

/-- Waiting for what arrives, once the caller is known not to have cancelled. -/
def await (id : Int32) (timeout : Option UInt64) : Talk ByteArray := do
  let channel ← held
  modify (·.record (.receive id timeout))
  match channel.deliveries with
  | [] => throw channel.silence
  | delivery :: rest =>
    modify fun c =>
      { c with
        channel := some { channel with deliveries := rest }
        cancelled := c.cancelled || delivery.cancels }
    ofExcept (delivery.answer id)

theorem await_of_held {channel : Channel} (held : c.channel = some channel) (id : Int32)
    (timeout : Option UInt64) :
    await id timeout c =
      match channel.deliveries with
      | [] => .error channel.silence (c.record (.receive id timeout))
      | delivery :: rest =>
        ofExcept (delivery.answer id) (arrived channel delivery rest id timeout c) := by
  unfold await
  rw [bind_of_ok (a := channel) (t := c) (by unfold Talk.held; rw [held])]
  cases channel.deliveries with
  | nil => rfl
  | cons delivery rest => rfl

theorem await_of_released (released : c.channel = none) (id : Int32) (timeout : Option UInt64) :
    await id timeout c = .error .channelReleased c := by
  unfold await
  exact bind_eq_error_iff.mpr (.inl (by unfold Talk.held; rw [released]))

theorem goes_arrived {channel : Channel} {delivery : Delivery} {rest : List Delivery} {id : Int32}
    {timeout : Option UInt64} (held : c.channel = some channel)
    (split : channel.deliveries = delivery :: rest) (h : seen (.receive id timeout)) :
    c.Goes seen (arrived channel delivery rest id timeout c) where
  held _ := rfl
  reports failure := by
    rintro ⟨channel', eq, reports⟩
    cases eq
    refine ⟨channel, held, ?_⟩
    rcases reports with mem | silent | ⟨late, mem, answer⟩
    · exact .inl mem
    · exact .inr (.inl silent)
    · exact .inr (.inr ⟨late, by rw [split]; exact List.mem_cons_of_mem _ mem, answer⟩)
  pending := by simp [arrived, Conversation.pending, held, split]
  events := ⟨[.receive id timeout], rfl, by simpa using h⟩

theorem goes_record {event : Event} (h : seen event) : c.Goes seen (c.record event) where
  held := id
  reports _ := id
  pending := Nat.le_refl _
  events := ⟨[event], rfl, by simpa using h⟩

namespace Modest

theorem await {id : Int32} {timeout : Option UInt64} (h : seen (.receive id timeout)) :
    (Talk.await id timeout).Modest seen := by
  intro c
  cases hc : c.channel with
  | none =>
    rw [await_of_released hc]
    exact ⟨.refl c, .released hc⟩
  | some channel =>
    rw [await_of_held hc]
    cases hd : channel.deliveries with
    | nil => exact ⟨goes_record h, .reported ⟨channel, hc, .inr (.inl rfl)⟩⟩
    | cons delivery rest =>
      have goes := goes_arrived hc hd h
      have mem : delivery ∈ channel.deliveries := by
        rw [hd]
        exact List.mem_cons_self
      dsimp only
      cases answer : delivery.answer id with
      | ok bytes => exact goes
      | error failure =>
        exact ⟨goes, .reported ⟨channel, hc, .inr (.inr ⟨delivery, mem, id, answer⟩)⟩⟩

theorem receive {id : Int32} {timeout : Option UInt64} (h : seen (.receive id timeout)) :
    (Talk.receive id timeout).Modest seen :=
  .bind .proceed fun _ => .await h

/-- Asking shows the request and the wait for its reply, and nothing else. -/
theorem ask (request : Request) (id : Int32) (timeout : Option UInt64) :
    (Talk.ask request id timeout).Modest (Event.Serves request id timeout) := by
  refine .ofExcept_bind request.failsInMessage_encode fun message encoded => ?_
  refine .bind (.send ⟨rfl, encoded, rfl⟩) fun _ => ?_
  refine .bind (.receive ⟨rfl, rfl⟩) fun bytes => ?_
  refine .bind (.ofExcept (Reply.failsInMessage_decode bytes)) fun reply => ?_
  exact .bind (.ofExcept (reply.failsInMessage_check id)) fun _ => .pure _

theorem values {shape : Shape} (reply : Reply) (codec : Codec shape) (registry : Registry) :
    (Talk.values reply codec registry).Modest seen := by
  unfold Talk.values
  cases reply.values codec registry with
  | ok values registry => exact .pure _
  | error fault registry =>
    show Talk.Modest seen (Talk.ofExcept (.error (.wire fault) : Except Failure (List shape.Carrier)))
    exact .ofExcept (.error trivial)

end Modest

/-! ## Requests that are answered -/

variable {request : Request} {id : Int32} {timeout : Option UInt64}

theorem held_eq_ok_iff {channel : Channel} :
    held c = .ok channel c' ↔ c.channel = some channel ∧ c = c' := by
  unfold held
  cases c.channel <;> simp

theorem of_send_eq_ok {token : Token} {message : ByteArray} {u : Unit}
    (h : send token message timeout c = .ok u c') :
    ∃ channel, c.channel = some channel ∧ c' = sent token channel message timeout c := by
  obtain ⟨⟨⟩, m, checks, h⟩ := bind_eq_ok_iff.mp h
  obtain ⟨-, rfl⟩ := check_eq_ok_iff.mp checks
  cases hc : c.channel with
  | none =>
    rw [post_of_released hc] at h
    cases h
  | some channel =>
    rcases post_of_held hc token message timeout with fine | ⟨failure, -, failed⟩
    · rw [fine] at h
      cases h
      exact ⟨channel, rfl, rfl⟩
    · rw [failed] at h
      cases h

theorem of_receive_eq_ok {bytes : ByteArray} (h : receive id timeout c = .ok bytes c') :
    ∃ channel delivery rest, c.channel = some channel ∧ channel.deliveries = delivery :: rest ∧
      delivery.answer id = .ok bytes ∧ c' = arrived channel delivery rest id timeout c := by
  obtain ⟨⟨⟩, m, proceeds, h⟩ := bind_eq_ok_iff.mp h
  obtain ⟨-, rfl⟩ := proceed_eq_ok_iff.mp proceeds
  change await id timeout c = .ok bytes c' at h
  cases hc : c.channel with
  | none =>
    rw [await_of_released hc] at h
    cases h
  | some channel =>
    rw [await_of_held hc] at h
    cases hd : channel.deliveries with
    | nil =>
      rw [hd] at h
      cases h
    | cons delivery rest =>
      rw [hd] at h
      obtain ⟨answer, rfl⟩ := ofExcept_eq_ok_iff.mp h
      exact ⟨channel, delivery, rest, rfl, hd, answer, rfl⟩

/-- A request that is answered has been sent, and directly afterwards its reply has been delivered. -/
theorem of_ask_eq_ok {reply : Reply} (h : ask request id timeout c = .ok reply c') :
    ∃ message channel delivery rest bytes, request.encode = .ok message ∧ c.channel = some channel ∧
      channel.deliveries = delivery :: rest ∧ delivery.answer id = .ok bytes ∧
      Reply.decode bytes = .ok reply ∧ reply.check id = .ok () ∧
      c' = arrived { channel with sends := channel.sends.tail } delivery rest id timeout
        (sent .caller channel message timeout c) := by
  obtain ⟨message, m, encodes, h⟩ := bind_eq_ok_iff.mp h
  obtain ⟨⟨⟩, m₁, sends, h⟩ := bind_eq_ok_iff.mp h
  obtain ⟨bytes, m₂, receives, h⟩ := bind_eq_ok_iff.mp h
  obtain ⟨reply', m₃, decodes, h⟩ := bind_eq_ok_iff.mp h
  obtain ⟨⟨⟩, m₄, checks, h⟩ := bind_eq_ok_iff.mp h
  obtain ⟨encoded, rfl⟩ := ofExcept_eq_ok_iff.mp encodes
  obtain ⟨channel, held, rfl⟩ := of_send_eq_ok sends
  obtain ⟨channel', delivery, rest, held', split, answer, rfl⟩ := of_receive_eq_ok receives
  obtain ⟨decoded, rfl⟩ := ofExcept_eq_ok_iff.mp decodes
  obtain ⟨checked, rfl⟩ := ofExcept_eq_ok_iff.mp checks
  obtain ⟨rfl, rfl⟩ := pure_eq_ok_iff.mp h
  cases held'
  exact ⟨message, channel, delivery, rest, bytes, encoded, held, split, answer, decoded, checked, rfl⟩

/-- A reply that is accepted has used a delivery up. -/
theorem pending_of_ask {reply : Reply} (h : ask request id timeout c = .ok reply c') :
    c'.pending < c.pending := by
  obtain ⟨message, channel, delivery, rest, bytes, -, held, split, -, -, -, rfl⟩ := of_ask_eq_ok h
  simp [arrived, Conversation.pending, held, split]

end Talk

end DocumentClient
