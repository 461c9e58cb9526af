import DocumentClient.Proofs.Session.Output
import DocumentClient.Proofs.Session.Provenance

/-!
# How much is asked for

A cursor asks for more only when everything that has arrived is handed out, and never for more than may
still be handed out. So if the server keeps to what it is asked for, nothing arrives in vain: the limit
covers what was handed out together with what is buffered, and reaching it drops nothing.

The first message asks for a batch whose size follows from the limit and the batch size of the query. A
message that asks for more is the first thing that a fetch shows, if it gets so far; everything that was
seen before it tells at which moment of the run it was sent.

Results:
1. `Cursor.sends_of_answer`: a fetch sends at most one message, and sends it first.
2. `Session.invariant_sized`: what was asked for, and when, along a run.
3. `Session.invariant_covered`: the limit covers what is buffered if the server keeps to its part.
4. `Query.exists_begun_of_execute`: how much the first message asks for.
5. `Query.execute_sized`: from the query to any moment of any run of its cursor.
-/

namespace DocumentClient

open Outcome

variable {shape : Shape}

/-! ## Definitions -/

/-- A message that asks for more results. -/
def Event.IsMore : Event → Prop
  | .send message _ => opcodeWord message = Opcode.getMore.number
  | _ => False

/-- The reply has no more documents than were asked for; who asks for zero leaves it open, and the sign
does not count. -/
def Reply.Within (reply : Reply) (asked : Int32) : Prop :=
  asked ≠ 0 → reply.documents.length ≤ asked.toInt.natAbs

/-- The number of documents that the cursor asks for next, as the message tells it. -/
def Cursor.asked (cursor : Cursor shape) : Int32 :=
  Int32.ofNat cursor.nextFetchSize

/-- A reply that is accepted has no more documents than were asked for. -/
def Act.Within : Act shape → Prop
  | fetch s => ∀ reply values c, s.cursor.answer s.talk = .ok (reply, values) c →
      reply.Within s.cursor.asked
  | close _ => True

namespace Session

/-- Whoever asks for more has handed everything out and is open. With a limit, some results may still
be handed out, and what is asked for is all of them or a page of them. -/
structure Asks (limit pageSize : Nat) (s : Session shape) (message : ByteArray) : Prop where
  encoded : ∃ request : MoreRequest, Request.encode (.more request) = .ok message ∧
    request.numberToReturn = s.cursor.asked ∧ request.cursorId = s.cursor.id
  empty : s.cursor.batch = []
  live : s.cursor.closed = false
  unlimited : limit = 0 → s.cursor.asked.toInt = pageSize
  positive : 0 < limit → 1 ≤ s.cursor.asked.toInt
  short : 0 < limit → s.cursor.asked.toInt ≤ (limit : Int) - s.cursor.totalReturned
  whole : 0 < limit → pageSize = 0 →
    s.cursor.asked.toInt = (limit : Int) - s.cursor.totalReturned
  page : 0 < limit → pageSize ≠ 0 →
    s.cursor.asked.toInt = min (pageSize : Int) ((limit : Int) - s.cursor.totalReturned)

/-- Each request for more that has been seen was made by a fetch, before which the rest had been seen. -/
def AllAsked (limit pageSize : Nat) (acts : List (Act shape)) (events : List Event) : Prop :=
  ∀ token message timeout before, @Event.send token message timeout :: before <:+ events →
    opcodeWord message = Opcode.getMore.number →
      token = .caller ∧ ∃ t, .fetch t ∈ acts ∧ t.talk.events = before ∧ t.Asks limit pageSize message

/-- What has been asked for so far, and what may still be. -/
structure Sized (limit pageSize : Nat) (acts : List (Act shape)) (s : Session shape) : Prop where
  limited : s.cursor.limit = limit
  paged : s.cursor.pageSize = pageSize
  count : 0 < limit → s.cursor.remaining + s.cursor.totalReturned = limit
  asked : AllAsked limit pageSize acts s.talk.events

/-- These events were the first that were seen, whatever has been done since. -/
def HasSeen (events : List Event) (_ : List (Act shape)) (s : Session shape) : Prop :=
  events <:+ s.talk.events

/-- The limit covers what was handed out and what is buffered. -/
def Fits (limit : Nat) (s : Session shape) : Prop :=
  s.cursor.totalReturned + s.cursor.batch.length ≤ limit

end Session

/-- The limit covers the session in which something is done, and a close when the limit is reached has
nothing left to drop. -/
def Act.Keeps (limit : Nat) : Act shape → Prop
  | fetch s => s.Fits limit
  | close s => s.Fits limit ∧ (s.cursor.limitReached = true → s.cursor.batch = [])

namespace Session

/-- The limit covers the session and has covered all that was done before. -/
structure Covered (limit : Nat) (acts : List (Act shape)) (s : Session shape) : Prop where
  now : s.Fits limit
  before : ∀ act ∈ acts, act.Keeps limit

end Session

/-! ## What arrives -/

theorem length_of_mapM {ε σ α β : Type} {f : α → EStateM ε σ β} {as : List α} {bs : List β}
    {s t : σ} (h : as.mapM f s = .ok bs t) : bs.length = as.length := by
  induction as generalizing bs s with
  | nil =>
    rw [List.mapM_nil] at h
    obtain ⟨rfl, -⟩ := pure_eq_ok_iff.mp h
    rfl
  | cons a as ih =>
    rw [List.mapM_cons] at h
    obtain ⟨b, m, -, h⟩ := bind_eq_ok_iff.mp h
    obtain ⟨rest, m', mapped, h⟩ := bind_eq_ok_iff.mp h
    obtain ⟨rfl, rfl⟩ := pure_eq_ok_iff.mp h
    exact congrArg Nat.succ (ih mapped)

/-- Each document of a reply becomes one value. -/
theorem Talk.length_of_values {reply : Reply} {codec : Codec shape} {registry : Registry}
    {values : List shape.Carrier} {c c' : Conversation}
    (h : Talk.values reply codec registry c = .ok values c') :
    values.length = reply.documents.length := by
  unfold Talk.values at h
  cases read : reply.values codec registry with
  | ok found r =>
    rw [read] at h
    obtain ⟨rfl, -⟩ := pure_eq_ok_iff.mp h
    exact length_of_mapM read
  | error fault r =>
    rw [read] at h
    cases h

/-- A reply counts its documents in a word, so there are not more of them. -/
theorem Reply.length_of_decode {data : ByteArray} {reply : Reply} (h : Reply.decode data = .ok reply) :
    reply.documents.length < 2 ^ 31 := by
  obtain ⟨-, header, slices, -, -, -, counted, rfl⟩ := decode_eq_ok_iff.mp h
  have bound := Int32.toInt_lt (wordAt data 32)
  show slices.length < 2 ^ 31
  omega

/-- The documents of a reply that is accepted are counted in a word. -/
theorem Talk.length_of_ask {request : Request} {id : Int32} {timeout : Option UInt64} {reply : Reply}
    {c c' : Conversation} (h : ask request id timeout c = .ok reply c') :
    reply.documents.length < 2 ^ 31 := by
  obtain ⟨message, channel, delivery, rest, bytes, -, -, -, -, decoded, -, -⟩ := of_ask_eq_ok h
  exact Reply.length_of_decode decoded

theorem Cursor.length_of_answer {cursor : Cursor shape} {reply : Reply} {values : List shape.Carrier}
    {c c' : Conversation} (h : cursor.answer c = .ok (reply, values) c') :
    values.length = reply.documents.length := by
  obtain ⟨⟨⟩, m₁, -, h⟩ := bind_eq_ok_iff.mp h
  obtain ⟨channel, m₂, -, h⟩ := bind_eq_ok_iff.mp h
  obtain ⟨id, m₃, -, h⟩ := bind_eq_ok_iff.mp h
  obtain ⟨reply', m₄, -, h⟩ := bind_eq_ok_iff.mp h
  obtain ⟨values', m₅, read, h⟩ := bind_eq_ok_iff.mp h
  obtain ⟨same, -⟩ := pure_eq_ok_iff.mp h
  cases same
  exact Talk.length_of_values read

theorem Plan.length_of_firstAnswer {plan : Plan shape} {server : Server} {reply : Reply}
    {values : List shape.Carrier} {c c' : Conversation}
    (h : plan.firstAnswer server c = .ok (reply, values) c') :
    values.length = reply.documents.length ∧ reply.documents.length < 2 ^ 31 := by
  obtain ⟨⟨⟩, m₁, -, h⟩ := bind_eq_ok_iff.mp h
  obtain ⟨id, m₂, -, h⟩ := bind_eq_ok_iff.mp h
  obtain ⟨⟨⟩, m₃, -, h⟩ := bind_eq_ok_iff.mp h
  obtain ⟨reply', m₄, asked, h⟩ := bind_eq_ok_iff.mp h
  obtain ⟨values', m₅, read, h⟩ := bind_eq_ok_iff.mp h
  obtain ⟨same, -⟩ := pure_eq_ok_iff.mp h
  cases same
  exact ⟨Talk.length_of_values read, Talk.length_of_ask asked⟩

/-! ## What is sent -/

namespace Conversation

/-- Of all that is seen from one moment to another, at most one is a message, and it comes first. -/
def SendsFirst (c c' : Conversation) : Prop :=
  ∃ waits, (∀ e ∈ waits, ¬ e.IsMore) ∧
    (c'.events = waits ++ c.events ∨
      ∃ token message timeout, c'.events = waits ++ @Event.send token message timeout :: c.events)

/-- Nothing is asked for from one moment to another. -/
abbrev Quiet (c c' : Conversation) : Prop :=
  c.Shows (¬ ·.IsMore) c'

variable {seen : Event → Prop} {c c' c'' : Conversation}

theorem shows_release (c : Conversation) (h : seen .release) : c.Shows seen c.release := by
  unfold release
  cases c.channel with
  | none => exact .refl c
  | some channel => exact ⟨[.release], rfl, List.forall_mem_singleton.mpr h⟩

theorem quiet_release (c : Conversation) : c.Quiet c.release :=
  c.shows_release nofun

theorem SendsFirst.refl (c : Conversation) : c.SendsFirst c :=
  ⟨[], nofun, .inl rfl⟩

theorem SendsFirst.of_events_eq (same : c'.events = c.events) (h : c'.SendsFirst c'') :
    c.SendsFirst c'' := by
  unfold SendsFirst at h
  rw [same] at h
  exact h

theorem SendsFirst.goes (h : c.SendsFirst c') (waits : c'.Goes (¬ ·.IsMore) c'') :
    c.SendsFirst c'' := by
  obtain ⟨before, quiet, eq⟩ := h
  obtain ⟨after, eq', quiet'⟩ := waits.events
  refine ⟨after ++ before, fun e mem => ?_, ?_⟩
  · rcases List.mem_append.mp mem with mem | mem
    · exact quiet' e mem
    · exact quiet e mem
  · rw [eq']
    rcases eq with eq | ⟨token, message, timeout, eq⟩
    · exact .inl (by rw [eq, List.append_assoc])
    · exact .inr ⟨token, message, timeout, by rw [eq, List.append_assoc]⟩

/-- How talking ends if it sends at most one message, and that first. -/
def SendsFirstTo {α : Type} (c : Conversation) : EStateM.Result Failure Conversation α → Prop
  | .ok _ c' => c.SendsFirst c'
  | .error _ c' => c.SendsFirst c'

/-- A request for more that is seen now was seen before, unless it is among what came in between. -/
theorem suffix_of_quiet {e : Event} {before more events : List Event} (asks : e.IsMore)
    (quiet : ∀ e ∈ more, ¬ e.IsMore) (h : e :: before <:+ more ++ events) : e :: before <:+ events := by
  induction more with
  | nil => exact h
  | cons other more ih =>
    rcases List.suffix_cons_iff.mp h with eq | h
    · cases eq
      exact absurd asks (quiet e List.mem_cons_self)
    · exact ih (fun e mem => quiet e (List.mem_cons_of_mem _ mem)) h

end Conversation

namespace Talk

variable {α β : Type}

/-- Talking that sends at most one message, and that first. -/
def SendsFirst (talk : Talk α) : Prop :=
  ∀ c : Conversation, c.SendsFirstTo (talk c)

namespace SendsFirst

theorem bind {x : Talk α} {f : α → Talk β} (first : x.SendsFirst)
    (rest : ∀ a, (f a).Modest (¬ ·.IsMore)) : Talk.SendsFirst (x >>= f) := by
  intro c
  have sends := first c
  cases hx : x c with
  | error failure m =>
    rw [hx] at sends
    rw [bind_eq_error_iff.mpr (.inl hx)]
    exact sends
  | ok a m =>
    rw [hx] at sends
    rw [bind_of_ok hx]
    cases hf : f a m with
    | ok b t => exact Conversation.SendsFirst.goes sends ((rest a).ok hf)
    | error failure t => exact Conversation.SendsFirst.goes sends ((rest a).error hf).1

/-- What shows nothing may come before. -/
theorem after {x : Talk α} {f : α → Talk β} (silent : x.Modest fun _ => False)
    (rest : ∀ a, (f a).SendsFirst) : Talk.SendsFirst (x >>= f) := by
  intro c
  have same {m : Conversation} (goes : c.Goes (fun _ => False) m) : m.events = c.events := by
    obtain ⟨more, eq, none⟩ := goes.events
    rw [eq, List.eq_nil_iff_forall_not_mem.mpr none, List.nil_append]
  cases hx : x c with
  | error failure m =>
    rw [bind_eq_error_iff.mpr (.inl hx)]
    exact ⟨[], nofun, .inl (same (silent.error hx).1)⟩
  | ok a m =>
    rw [bind_of_ok hx]
    have sends := rest a m
    have start := same (silent.ok hx)
    cases hf : f a m with
    | ok b t =>
      rw [hf] at sends
      exact .of_events_eq start sends
    | error failure t =>
      rw [hf] at sends
      exact .of_events_eq start sends

theorem post (token : Token) (message : ByteArray) (timeout : Option UInt64) :
    (Talk.post token message timeout).SendsFirst := by
  intro c
  cases hc : c.channel with
  | none =>
    rw [post_of_released hc]
    exact .refl c
  | some channel =>
    have sends : c.SendsFirst (sent token channel message timeout c) :=
      ⟨[], nofun, .inr ⟨token, message, timeout, rfl⟩⟩
    rcases post_of_held hc token message timeout with fine | ⟨failure, -, failed⟩
    · rw [fine]
      exact sends
    · rw [failed]
      exact sends

/-- Asking sends the request first and waits afterwards. -/
theorem ask (request : Request) (id : Int32) (timeout : Option UInt64) :
    (Talk.ask request id timeout).SendsFirst := by
  refine .after (.ofExcept request.failsInMessage_encode) fun message => ?_
  refine .bind (.after (.check .caller) fun _ => .post .caller message timeout) fun _ => ?_
  refine .bind (.receive nofun) fun bytes => ?_
  refine .bind (.ofExcept (Reply.failsInMessage_decode bytes)) fun reply => ?_
  exact .bind (.ofExcept (reply.failsInMessage_check id)) fun _ => .pure _

end SendsFirst

end Talk

namespace Cursor

variable {cursor : Cursor shape} {c c' : Conversation}

theorem sendsFirst_answer (cursor : Cursor shape) : cursor.answer.SendsFirst := by
  refine .after .proceed fun _ => ?_
  refine .after (.bind .held fun _ => .pure _) fun _ => ?_
  refine .after .newId fun id => ?_
  exact .bind (.ask _ _ _) fun reply => .bind (.values _ _ _) fun values => .pure _

/-- A fetch sends at most one message, the request for more, and sends it first. -/
theorem sends_of_answer (goes : c.Goes cursor.FetchSeen c') (first : c.SendsFirst c')
    {token : Token} {message : ByteArray} {timeout : Option UInt64} {before : List Event}
    (asks : (@Event.send token message timeout).IsMore)
    (h : @Event.send token message timeout :: before <:+ c'.events) :
    @Event.send token message timeout :: before <:+ c.events ∨ before = c.events ∧ token = .caller ∧
      ∃ id, Request.encode (.more (cursor.moreRequest id)) = .ok message := by
  obtain ⟨waits, quiet, eq | ⟨token', message', timeout', eq⟩⟩ := first
  · rw [eq] at h
    exact .inl (Conversation.suffix_of_quiet asks quiet h)
  · rw [eq] at h
    rcases List.suffix_cons_iff.mp (Conversation.suffix_of_quiet asks quiet h) with same | earlier
    · cases same
      obtain ⟨more, eq', seen⟩ := goes.events
      have whole : more = waits ++ [@Event.send token message timeout] := by
        have same : more ++ c.events = waits ++ [@Event.send token message timeout] ++ c.events := by
          rw [← eq', eq, List.append_assoc]
          rfl
        exact List.append_cancel_right same
      obtain ⟨id, caller, encoded, -⟩ := seen (@Event.send token message timeout) (by simp [whole])
      exact .inr ⟨rfl, caller, id, encoded⟩
    · exact .inl earlier

theorem quiet_accepted (reply : Reply) (values : List shape.Carrier) :
    c.Quiet (cursor.accepted reply values c) := by
  unfold accepted
  dsimp only
  split
  · exact Conversation.quiet_release _
  · exact .refl _

theorem nextFetchSize_of_unlimited (h : cursor.limit = 0) :
    cursor.nextFetchSize = cursor.pageSize := by
  simp [nextFetchSize, h]

theorem nextFetchSize_of_whole (limited : 0 < cursor.limit) (h : cursor.pageSize = 0) :
    cursor.nextFetchSize = cursor.remaining := by
  simp [nextFetchSize, limited, h]

theorem nextFetchSize_of_page (limited : 0 < cursor.limit) (h : cursor.pageSize ≠ 0) :
    cursor.nextFetchSize = min cursor.pageSize cursor.remaining := by
  simp [nextFetchSize, limited, h]

/-- With a limit, never more is asked for than may still be handed out. -/
theorem nextFetchSize_le_remaining (limited : 0 < cursor.limit) :
    cursor.nextFetchSize ≤ cursor.remaining := by
  by_cases whole : cursor.pageSize = 0
  · exact Nat.le_of_eq (nextFetchSize_of_whole limited whole)
  · rw [nextFetchSize_of_page limited whole]
    exact Nat.min_le_right _ _

/-- As long as something may still be handed out, something is asked for. -/
theorem nextFetchSize_pos (limited : 0 < cursor.limit) (more : cursor.remaining ≠ 0) :
    0 < cursor.nextFetchSize := by
  by_cases whole : cursor.pageSize = 0
  · rw [nextFetchSize_of_whole limited whole]
    exact Nat.pos_of_ne_zero more
  · rw [nextFetchSize_of_page limited whole]
    exact Nat.lt_min.mpr ⟨Nat.pos_of_ne_zero whole, Nat.pos_of_ne_zero more⟩

/-- What is asked for fits into a word, so it is told as it is. -/
theorem toInt_asked (cursor : Cursor shape) (limited : cursor.limit < 2 ^ 31)
    (paged : cursor.pageSize < 2 ^ 31) (count : 0 < cursor.limit → cursor.remaining ≤ cursor.limit) :
    cursor.asked.toInt = cursor.nextFetchSize := by
  refine Int32.toInt_ofNat_of_lt ?_
  rcases Nat.eq_zero_or_pos cursor.limit with unlimited | some
  · rw [nextFetchSize_of_unlimited unlimited]
    exact paged
  · exact Nat.lt_of_le_of_lt (Nat.le_trans (nextFetchSize_le_remaining some) (count some)) limited

end Cursor

namespace Session

variable {limit pageSize : Nat} {acts : List (Act shape)} {s : Session shape}

/-- Closing sends at most the message that gives the cursor up. -/
theorem quiet_close (s : Session shape) : s.talk.Quiet s.close.talk := by
  cases hc : s.talk.channel with
  | none =>
    rw [close_of_released hc]
    exact .refl _
  | some channel =>
    by_cases known : s.cursor.id = 0
    · have last : s.close.talk =
          (s.talk.notify (.closed s.cursor.id s.cursor.totalReturned)).release := by
        simp [close, hc, Cursor.giveUp, known]
      rw [last]
      exact Conversation.quiet_release _
    · have held : s.talk.channel.isSome := Option.isSome_of_eq_some hc
      obtain ⟨id, message, encoded, events⟩ := close_of_held held known
      refine ⟨[.release, @Event.send .own message s.cursor.timeout], events, ?_⟩
      have kill : ¬ (@Event.send .own message s.cursor.timeout).IsMore := by
        intro asks
        have opcode := Request.opcodeWord_encode encoded
        exact absurd (Opcode.number_injective (opcode.symm.trans asks)) nofun
      rintro e (_ | ⟨_, _ | ⟨_, mem⟩⟩)
      · exact nofun
      · exact kill
      · cases mem

/-- Nothing may be asked for in between. -/
theorem AllAsked.quiet {c c' : Conversation} (h : AllAsked limit pageSize acts c.events)
    (quiet : c.Quiet c') : AllAsked limit pageSize acts c'.events := by
  obtain ⟨more, eq, quiet⟩ := quiet
  intro token message timeout before suffix asks
  rw [eq] at suffix
  exact h token message timeout before (Conversation.suffix_of_quiet asks quiet suffix) asks

theorem AllAsked.mono {more : List (Act shape)} {events : List Event}
    (h : AllAsked limit pageSize acts events) : AllAsked limit pageSize (acts ++ more) events := by
  intro token message timeout before suffix asks
  obtain ⟨caller, t, mem, rest⟩ := h token message timeout before suffix asks
  exact ⟨caller, t, List.mem_append_left _ mem, rest⟩

namespace Sized

/-- A fetch that is made asks for what the limit and the page size say. -/
theorem asks (h : Sized limit pageSize acts s) (limited : limit < 2 ^ 31) (paged : pageSize < 2 ^ 31)
    (short : s.cursor.limitReached = false) (empty : s.cursor.batch = [])
    (live : s.cursor.closed = false) {message : ByteArray}
    (encoded : ∃ id, Request.encode (.more (s.cursor.moreRequest id)) = .ok message) :
    s.Asks limit pageSize message := by
  obtain ⟨rfl, rfl, count, -⟩ := h
  have told := s.cursor.toInt_asked limited paged fun some => by
    rw [← count some]
    exact Nat.le_add_right _ _
  -- what remains is what the limit leaves of the results
  have remaining (some : 0 < s.cursor.limit) :
      (s.cursor.remaining : Int) = (s.cursor.limit : Int) - s.cursor.totalReturned := by
    have count := count some
    omega
  have more := Cursor.limitReached_eq_false_iff.mp short
  obtain ⟨id, encoded⟩ := encoded
  have request : ∃ request : MoreRequest, Request.encode (.more request) = .ok message ∧
      request.numberToReturn = s.cursor.asked ∧ request.cursorId = s.cursor.id :=
    ⟨s.cursor.moreRequest id, encoded, rfl, rfl⟩
  refine ⟨request, empty, live, fun none => ?_, fun some => ?_, fun some => ?_, fun some whole => ?_,
    fun some page => ?_⟩
  · rw [told, Cursor.nextFetchSize_of_unlimited none]
  · rw [told]
    exact Int.ofNat_le.mpr (Cursor.nextFetchSize_pos some (more some))
  · rw [told, ← remaining some]
    exact Int.ofNat_le.mpr (Cursor.nextFetchSize_le_remaining some)
  · rw [told, Cursor.nextFetchSize_of_whole some whole, remaining some]
  · rw [told, Cursor.nextFetchSize_of_page some page, ← remaining some]
    omega

theorem fetched_asked (h : Sized limit pageSize acts s) (limited : limit < 2 ^ 31)
    (paged : pageSize < 2 ^ 31) (short : s.cursor.limitReached = false) (empty : s.cursor.batch = [])
    (live : s.cursor.closed = false) {c : Conversation} (goes : s.talk.Goes s.cursor.FetchSeen c)
    (first : s.talk.SendsFirst c) : AllAsked limit pageSize (acts ++ [.fetch s]) c.events := by
  intro token message timeout before suffix asks
  rcases Cursor.sends_of_answer goes first asks suffix with earlier | ⟨rfl, caller, encoded⟩
  · exact h.asked.mono token message timeout before earlier asks
  · exact ⟨caller, s, List.mem_append_right _ List.mem_cons_self, rfl,
      h.asks limited paged short empty live encoded⟩

end Sized

/-- What is asked for, and when, along a run. -/
theorem invariant_sized (limited : limit < 2 ^ 31) (paged : pageSize < 2 ^ 31) :
    Invariant (@Sized shape limit pageSize) where
  close h := ⟨h.limited, h.paged, h.count, h.asked.mono.quiet (quiet_close _)⟩
  cancel h := ⟨h.limited, h.paged, h.count, h.asked⟩
  taken {acts s a rest} h short here := by
    refine ⟨h.limited, h.paged, fun some => ?_, h.asked⟩
    have count := h.count some
    have more := Cursor.limitReached_eq_false_iff.mp short
    rw [← h.limited] at some
    show (if 0 < s.cursor.limit then _ else _) + (s.cursor.totalReturned + 1) = limit
    rw [if_pos some]
    have more := more some
    omega
  failed {acts s failure c} h short empty live failed := by
    have answer := Cursor.fetch_eq_error_iff.mp failed
    have first := s.cursor.sendsFirst_answer s.talk
    rw [answer] at first
    have asked := h.fetched_asked limited paged short empty live
      (s.cursor.modest_answer.error answer).1 first
    exact ⟨h.limited, h.paged, h.count, asked.quiet (Conversation.quiet_release _)⟩
  fetched {acts s cursor c} h short empty live fetched := by
    obtain ⟨reply, values, m, answer, rfl, rfl⟩ := Cursor.fetch_eq_ok_iff.mp fetched
    have first := s.cursor.sendsFirst_answer s.talk
    rw [answer] at first
    have asked := h.fetched_asked limited paged short empty live (s.cursor.modest_answer.ok answer) first
    exact ⟨h.limited, h.paged, h.count, asked.quiet (Cursor.quiet_accepted reply values)⟩

/-- What has been seen once stays seen along a run. -/
theorem invariant_hasSeen (events : List Event) : Invariant (@HasSeen shape events) where
  close {_ s} h := (quiet_close s).suffix h
  cancel h := h
  taken h _ _ := h
  failed {_ s _ c} h _ _ _ failed := by
    have goes := (s.cursor.modest_answer.error (Cursor.fetch_eq_error_iff.mp failed)).1
    exact (Conversation.quiet_release _).suffix (goes.events.suffix h)
  fetched {_ s _ _} h _ _ _ fetched := by
    obtain ⟨reply, values, m, answer, -, rfl⟩ := Cursor.fetch_eq_ok_iff.mp fetched
    have goes := s.cursor.modest_answer.ok answer
    exact (Cursor.quiet_accepted reply values).suffix (goes.events.suffix h)

namespace Covered

theorem close (h : Covered limit acts s) (sized : Sized limit pageSize acts s) :
    Covered limit (acts ++ [.close s]) s.close where
  now := Nat.le_trans (Nat.le_add_right _ _) h.now
  before := by
    refine forall_mem_concat h.before ⟨h.now, fun reached => ?_⟩
    obtain ⟨some, none⟩ := Cursor.limitReached_eq_true_iff.mp reached
    rw [sized.limited] at some
    -- as many are handed out as the limit allows, so nothing can be buffered
    have count := sized.count some
    have now : s.cursor.totalReturned + s.cursor.batch.length ≤ limit := h.now
    exact List.eq_nil_of_length_eq_zero (by omega)

theorem taken {a : shape.Carrier} {rest : List shape.Carrier} (h : Covered limit acts s)
    (here : s.cursor.batch = a :: rest) : Covered limit acts (s.taken rest) where
  now := by
    have now : s.cursor.totalReturned + s.cursor.batch.length ≤ limit := h.now
    rw [here, List.length_cons] at now
    show s.cursor.totalReturned + 1 + rest.length ≤ limit
    omega
  before := h.before

/-- What a fetch leads to is covered if it is covered now; what led to it stays so. -/
theorem fetch {s' : Session shape} (h : Covered limit acts s) (now : s'.Fits limit) :
    Covered limit (acts ++ [.fetch s]) s' :=
  ⟨now, forall_mem_concat h.before h.now⟩

end Covered

/-- A reply that keeps to what was asked for fits. -/
theorem fits_extended (h : Sized limit pageSize acts s) (limited : limit < 2 ^ 31)
    (paged : pageSize < 2 ^ 31) (some : 0 < limit) (short : s.cursor.limitReached = false)
    (empty : s.cursor.batch = []) {reply : Reply} {values : List shape.Carrier} {c m : Conversation}
    (answer : s.cursor.answer s.talk = .ok (reply, values) m) (within : reply.Within s.cursor.asked) :
    Fits limit ⟨s.cursor.extended reply values, c⟩ := by
  obtain ⟨rfl, rfl, count, -⟩ := h
  have count := count some
  have remaining : s.cursor.remaining ≠ 0 := Cursor.limitReached_eq_false_iff.mp short some
  have told := s.cursor.toInt_asked limited paged fun _ => by
    rw [← count]
    exact Nat.le_add_right _ _
  have lower := Cursor.nextFetchSize_pos some remaining
  have upper := Cursor.nextFetchSize_le_remaining some
  -- only a cursor without a limit leaves open how many
  have definite : s.cursor.asked ≠ 0 := by
    intro none
    rw [none, Int32.toInt_zero] at told
    omega
  have within := within definite
  show s.cursor.totalReturned + (s.cursor.batch ++ values).length ≤ s.cursor.limit
  rw [empty, List.nil_append, Cursor.length_of_answer answer]
  omega

/-- The limit covers what is buffered along a run, if the server keeps to what it is asked for. -/
theorem invariant_covered (limited : limit < 2 ^ 31) (paged : pageSize < 2 ^ 31) (some : 0 < limit) :
    Invariant fun acts (s : Session shape) => Sized limit pageSize acts s ∧
      ((∀ act ∈ acts, act.Within) → Covered limit acts s) := by
  have sized := @invariant_sized shape limit pageSize limited paged
  have earlier {acts : List (Act shape)} {last : Act shape}
      (within : ∀ act ∈ acts ++ [last], act.Within) (act : Act shape) (mem : act ∈ acts) : act.Within :=
    within act (List.mem_append_left _ mem)
  refine ⟨?_, ?_, ?_, ?_, ?_⟩
  · rintro acts s ⟨h, covered⟩
    exact ⟨sized.close h, fun within => (covered (earlier within)).close h⟩
  · rintro acts s ⟨h, covered⟩
    refine ⟨sized.cancel h, fun within => ?_⟩
    exact ⟨(covered within).now, (covered within).before⟩
  · rintro acts s a rest ⟨h, covered⟩ short here
    exact ⟨sized.taken h short here, fun within => (covered within).taken here⟩
  · rintro acts s failure c ⟨h, covered⟩ short empty live failed
    refine ⟨sized.failed h short empty live failed, fun within => ?_⟩
    have covered := covered (earlier within)
    exact covered.fetch covered.now
  · rintro acts s cursor c ⟨h, covered⟩ short empty live fetched
    refine ⟨sized.fetched h short empty live fetched, fun within => ?_⟩
    have kept : (Act.fetch s).Within := within _ (List.mem_append_right _ List.mem_cons_self)
    obtain ⟨reply, values, m, answer, rfl, rfl⟩ := Cursor.fetch_eq_ok_iff.mp fetched
    exact (covered (earlier within)).fetch
      (fits_extended h limited paged some short empty answer (kept reply values m answer))

end Session

/-! ## From the query to any moment of a run -/

/-- With a limit, the first request tells it as it is, or a batch size that is not greater. -/
theorem firstBatchSize_of_limited {limit : Int32} (limited : limit ≠ 0) (batchSize : Int32) :
    firstBatchSize limit batchSize = limit ∨
      firstBatchSize limit batchSize = batchSize ∧ batchSize ≠ 0 ∧ ¬ limit < batchSize := by
  unfold firstBatchSize
  by_cases single : limit < 0
  · exact .inl (if_pos single)
  · rw [if_neg single, if_neg limited]
    by_cases whole : batchSize = 0
    · exact .inl (if_pos whole)
    · rw [if_neg whole]
      by_cases less : limit < batchSize
      · exact .inl (if_pos less)
      · exact .inr ⟨if_neg less, whole, less⟩

/-- So something is asked for at first, and never more than the limit, whatever its sign. -/
theorem firstBatchSize_le {limit batchSize : Int32} (limited : limit ≠ 0)
    (nonneg : 0 ≤ batchSize.toInt) : firstBatchSize limit batchSize ≠ 0 ∧
      (firstBatchSize limit batchSize).toInt.natAbs ≤ limit.toInt.natAbs := by
  rcases firstBatchSize_of_limited limited batchSize with whole | ⟨page, some, less⟩
  · rw [whole]
    exact ⟨limited, Nat.le_refl _⟩
  · rw [page]
    rw [Int32.lt_iff_toInt_lt] at less
    exact ⟨some, by omega⟩

namespace Query

/-- The limit without its sign, as far as it can be told in a word. -/
def cursorLimit (q : Query shape) : Nat :=
  min q.limit.toInt.natAbs (2 ^ 31 - 1)

/-- The batch size, which leaves the size of a page open if it is zero or not given. -/
def pageSize (q : Query shape) : Nat :=
  (q.batchSize.getD 0).toInt.toNat

/-- The message is a first request, and asks for a batch of the size that the query tells. -/
structure Begins (q : Query shape) (request : QueryRequest) (message : ByteArray) : Prop where
  encoded : Request.encode (.query request) = .ok message
  size : request.numberToReturn = firstBatchSize q.limit (q.batchSize.getD 0)

/-- No other message is sent than a first request, and that under the token of the caller. -/
def Opens (q : Query shape) : Event → Prop
  | @Event.send token message _ => token = .caller ∧ ∃ request, q.Begins request message
  | _ => True

/-- What was asked for until a moment of a run, and what the limit covers if the server keeps to it. -/
structure SizedRun (q : Query shape) (selection : Selection) (start : Conversation)
    (request : QueryRequest) (acts : List (Act shape)) (s : Session shape) : Prop where
  /-- The selection of a server is followed by the first request. -/
  first : ∃ message mode timeout, q.Begins request message ∧
    [@Event.send .caller message timeout, .select mode timeout] <:+ s.talk.events
  asked : Session.AllAsked q.cursorLimit q.pageSize acts s.talk.events
  count : 0 < q.cursorLimit → s.cursor.totalReturned ≤ q.cursorLimit
  covered : 0 < q.cursorLimit →
    (∀ reply, q.FirstReply selection start reply → reply.Within request.numberToReturn) →
    (∀ act ∈ acts, act.Within) → s.Covered q.cursorLimit acts

variable {q : Query shape} {plan : Plan shape}

theorem of_validate_eq_ok (h : q.validate = .ok plan) :
    plan.limit = q.limit ∧ plan.batchSize = q.batchSize.getD 0 := by
  unfold validate at h
  dsimp only at h
  split at h
  · split at h
    · obtain ⟨collection, -, h⟩ := exceptBind_eq_ok_iff.mp h
      obtain ⟨filter, -, h⟩ := exceptBind_eq_ok_iff.mp h
      obtain ⟨found, -, h⟩ := exceptBind_eq_ok_iff.mp h
      cases h
      exact ⟨rfl, rfl⟩
    · cases h
  · cases h

/-- The first request asks for as much as the query tells. -/
theorem begins_of_encode {server : Server} {id : Int32} {message : ByteArray}
    (valid : q.validate = .ok plan) (encoded : Request.encode (.query (plan.request server id)) = .ok message) :
    q.Begins (plan.request server id) message := by
  obtain ⟨limit, batchSize⟩ := of_validate_eq_ok valid
  refine ⟨encoded, ?_⟩
  show firstBatchSize plan.limit plan.batchSize = _
  rw [limit, batchSize]

theorem opens_of_firstSeen {server : Server} {e : Event} (valid : q.validate = .ok plan)
    (seen : plan.FirstSeen server e) : q.Opens e := by
  obtain ⟨id, serves⟩ := seen
  cases e with
  | send message timeout => exact ⟨serves.1, _, begins_of_encode valid serves.2.1⟩
  | select mode timeout | receive id timeout | release => trivial

/-- The first request does not ask for more. -/
theorem Opens.not_isMore {e : Event} (h : q.Opens e) : ¬ e.IsMore := by
  intro asks
  cases e with
  | send message timeout =>
    obtain ⟨-, request, begins⟩ := h
    have opcode := Request.opcodeWord_encode begins.encoded
    exact absurd (Opcode.number_injective (opcode.symm.trans asks)) nofun
  | select mode timeout | receive id timeout | release => exact asks

/-- A first reply that keeps to what was asked for fits. -/
theorem length_le_of_within {reply : Reply} {request : QueryRequest} {message : ByteArray}
    (valid : q.validate = .ok plan) (some : 0 < q.cursorLimit) (begins : q.Begins request message)
    (counted : reply.documents.length < 2 ^ 31) (within : reply.Within request.numberToReturn) :
    reply.documents.length ≤ q.cursorLimit := by
  rw [begins.size] at within
  have nonneg : 0 ≤ (q.batchSize.getD 0).toInt := by
    rw [← (of_validate_eq_ok valid).2]
    exact plan.batchSize_nonneg
  have limited : q.limit ≠ 0 := by
    intro none
    unfold cursorLimit at some
    rw [none] at some
    cases some
  obtain ⟨definite, most⟩ := firstBatchSize_le limited nonneg
  exact Nat.le_min.mpr ⟨Nat.le_trans (within definite) most, Nat.le_pred_of_lt counted⟩

section Execute

variable {selection : Selection} {cancelled : Bool} {nextId : Int32} {notices : List Notice}
  {c : Conversation}

theorem shows_of_select {mode : ReadMode} {timeout : Option UInt64} {start m : Conversation}
    (selected : Talk.select selection mode timeout start = .ok () m) : start.Shows q.Opens m :=
  ⟨[.select mode timeout], (Talk.of_select_eq_ok selected).2, List.forall_mem_singleton.mpr trivial⟩

theorem shows_started (reply : Reply) (c : Conversation) : c.Shows q.Opens (Plan.started reply c) := by
  unfold Plan.started
  split
  · exact c.shows_release trivial
  · exact .refl _

/-- Running a query sends nothing but the first request. -/
theorem shows_of_execute {cursor : Cursor shape} {start : Conversation}
    (h : q.execute selection start = .ok cursor c) : start.Shows q.Opens c := by
  obtain ⟨plan, m, reply, values, m', valid, selected, answered, -, rfl⟩ := execute_eq_ok_iff.mp h
  have goes := (plan.modest_firstAnswer _).ok answered
  have first : m.Shows q.Opens m' := goes.events.mono fun e => opens_of_firstSeen valid
  exact (shows_of_select selected).trans (first.trans (shows_started reply m'))

theorem shows_of_execute_error {failure : Failure} {start : Conversation}
    (h : q.execute selection start = .error failure c) : start.Shows q.Opens c := by
  rcases of_execute_eq_error h with ⟨-, rfl⟩ | ⟨plan, valid, nowhere | ⟨m, m', selected, failed, rfl⟩⟩
  · exact .refl _
  · obtain ⟨-, ⟨more, events, only⟩, -⟩ := Talk.of_select_eq_error nowhere
    refine ⟨more, events, fun e mem => ?_⟩
    rw [only e mem]
    trivial
  · have goes := ((plan.modest_firstAnswer _).error failed).1
    have first : m.Shows q.Opens m' := goes.events.mono fun e => opens_of_firstSeen valid
    exact (shows_of_select selected).trans (first.trans (Conversation.shows_release _ trivial))

/-- A query that is run has sent its first request right after the selection of a server. -/
theorem exists_begun_of_execute {cursor : Cursor shape}
    (h : q.execute selection (.fresh cancelled nextId notices) = .ok cursor c) :
    ∃ request message mode timeout, q.Begins request message ∧
      [@Event.send .caller message timeout, .select mode timeout] <:+ c.events := by
  obtain ⟨plan, m, reply, values, m', valid, selected, answered, -, rfl⟩ := execute_eq_ok_iff.mp h
  obtain ⟨bytes, ⟨message, encoded, told⟩, -, -⟩ := plan.exchange_of_firstAnswer answered
  refine ⟨_, message, plan.preference.mode, plan.timeout, begins_of_encode valid encoded, ?_⟩
  refine (shows_started (q := q) reply m').suffix ?_
  rw [told, (Talk.of_select_eq_ok selected).2]
  exact List.suffix_cons _ _

/-- The cursor of a query starts with the limit and the page size of the query. -/
theorem sized_of_execute {cursor : Cursor shape}
    (h : q.execute selection (.fresh cancelled nextId notices) = .ok cursor c) :
    Session.Sized q.cursorLimit q.pageSize [] ⟨cursor, c⟩ := by
  have unasked : Session.AllAsked q.cursorLimit q.pageSize ([] : List (Act shape))
      (Conversation.fresh cancelled nextId notices).events := by
    intro token message timeout before suffix
    cases List.suffix_nil.mp suffix
  have asked := unasked.quiet ((shows_of_execute h).mono fun e => Opens.not_isMore)
  obtain ⟨plan, m, reply, values, m', valid, -, -, rfl, -⟩ := execute_eq_ok_iff.mp h
  obtain ⟨limit, batchSize⟩ := of_validate_eq_ok valid
  have limited : plan.cursorLimit = q.cursorLimit := by
    unfold Plan.cursorLimit cursorLimit
    rw [limit]
  have paged : plan.batchSize.toInt.toNat = q.pageSize := by
    unfold pageSize
    rw [batchSize]
  exact ⟨limited, paged, fun _ => limited, asked⟩

/-- A first reply that keeps to what was asked for is covered by the limit. -/
theorem covered_of_execute {cursor : Cursor shape} {request : QueryRequest} {message : ByteArray}
    (some : 0 < q.cursorLimit) (begins : q.Begins request message)
    (h : q.execute selection (.fresh cancelled nextId notices) = .ok cursor c)
    (within : ∀ reply, q.FirstReply selection (.fresh cancelled nextId notices) reply →
      reply.Within request.numberToReturn) :
    Session.Covered q.cursorLimit [] ⟨cursor, c⟩ := by
  obtain ⟨plan, m, reply, values, m', valid, selected, answered, rfl, -⟩ := execute_eq_ok_iff.mp h
  obtain ⟨same, counted⟩ := Plan.length_of_firstAnswer answered
  have first := within reply ⟨plan, m, values, m', valid, selected, answered⟩
  have fits : values.length ≤ q.cursorLimit := by
    rw [same]
    exact length_le_of_within valid some begins counted first
  have start : (plan.opened reply values).totalReturned + (plan.opened reply values).batch.length =
      values.length := Nat.zero_add _
  exact ⟨Nat.le_trans (Nat.le_of_eq start) fits, List.forall_mem_nil _⟩

end Execute

/-- Whatever becomes of a query, its first message asks for as much as the limit and the batch size say.
Along every run of its cursor, more is asked for only when all is handed out, and never for more than the
limit leaves; and if the server keeps to what it is asked for, at first and later, the limit covers all that
arrives. -/
theorem execute_sized (q : Query shape) (selection : Selection) (cancelled : Bool) (nextId : Int32)
    (notices : List Notice) :
    match q.execute selection (.fresh cancelled nextId notices) with
    | .error _ c => ∀ e ∈ c.events, q.Opens e ∧ ¬ e.IsMore
    | .ok cursor c => ∃ request, ∀ calls, ∃ acts outputs s,
        Session.play calls ⟨cursor, c⟩ = (outputs, s) ∧
          Session.Run ⟨cursor, c⟩ calls acts outputs s ∧
            q.SizedRun selection (.fresh cancelled nextId notices) request acts s := by
  cases h : q.execute selection (.fresh cancelled nextId notices) with
  | error failure c =>
    obtain ⟨more, events, opens⟩ := shows_of_execute_error h
    have all : c.events = more := events.trans (List.append_nil more)
    show ∀ e ∈ c.events, q.Opens e ∧ ¬ e.IsMore
    rw [all]
    exact fun e mem => ⟨opens e mem, (opens e mem).not_isMore⟩
  | ok cursor c =>
    obtain ⟨request, message, mode, timeout, begins, begun⟩ := exists_begun_of_execute h
    refine ⟨request, fun calls => ?_⟩
    obtain ⟨acts, run⟩ := Session.exists_run_play calls ⟨cursor, c⟩
    have limited : q.cursorLimit < 2 ^ 31 := by
      unfold cursorLimit
      omega
    have paged : q.pageSize < 2 ^ 31 := by
      have bound := Int32.toInt_lt (q.batchSize.getD 0)
      unfold pageSize
      omega
    have start := sized_of_execute h
    have sized := (Session.invariant_sized limited paged).run start run
    rw [List.nil_append] at sized
    have begun : Session.HasSeen _ [] ⟨cursor, c⟩ := begun
    have kept := (Session.invariant_hasSeen _).run begun run
    refine ⟨acts, _, _, rfl, run, ⟨message, mode, timeout, begins, kept⟩, sized.asked, fun some => ?_,
      fun some first within => ?_⟩
    · rw [← sized.count some]
      exact Nat.le_add_left _ _
    · have fits := (Session.invariant_covered limited paged some).run
        ⟨start, fun _ => covered_of_execute some begins h first⟩ run
      rw [List.nil_append] at fits
      exact fits.2 within

end Query

end DocumentClient
