import DocumentClient.Proofs.Session.Opening
import DocumentClient.Proofs.Session.Rounds

/-!
# The life of a channel

A query takes a channel from the selection of a server and gives it back once, whatever the server
answers and whatever the caller does with the cursor. A cursor that the server still knows when it is
closed is given up by one last message; in every other case no such message is sent.

The invariant `Orderly` has two phases. While the channel is held, the cursor is open and names the
cursor of the latest reply, no reply has ended it, and nothing has been given up. Once the channel has
gone back, the cursor is closed and the account of it is settled.

Results:
1. `Session.Orderly.round`, `Session.Orderly.run`: what is done keeps the order.
2. `Query.execute_lifecycle`: from the query to the drop of its cursor.
-/

namespace DocumentClient

open Outcome

/-! ## Definitions -/

/-- A message that gives cursors up. -/
def Event.IsKill : Event → Prop
  | .send message _ => opcodeWord message = Opcode.killCursors.number
  | _ => False

/-- An event that neither gives the channel back nor gives cursors up. -/
def Event.Ordinary (e : Event) : Prop :=
  e ≠ .release ∧ ¬ e.IsKill

namespace Conversation

/-- The channel went back once, and nothing was sent or waited for afterwards. -/
def GivenBack (c : Conversation) : Prop :=
  c.channel = none ∧ ∃ before, c.events = .release :: before ∧ .release ∉ before

/-- There never was a channel. -/
def Untouched (c : Conversation) : Prop :=
  c.channel = none ∧ ∀ e ∈ c.events, ∃ mode timeout, e = .select mode timeout

end Conversation

/-- A close while the channel is held. -/
def Act.Kills {shape : Shape} : Act shape → Prop
  | fetch _ => False
  | close s => s.talk.channel.isSome

/-- How the account of a cursor is settled, by what was done and what was seen. -/
inductive Settled {shape : Shape} (first : Int64) (acts : List (Act shape)) (events : List Event) :
    Prop
  /-- One close found the channel held. All replies named a cursor and all fetches were answered. The
  message that gives up the latest cursor came right before the release, under a token of its own. -/
  | killed {s id message rest} (before after : List (Act shape))
      (once : acts = before ++ .close s :: after)
      (held : s.talk.channel.isSome) (others : ∀ act ∈ before ++ after, ¬ act.Kills)
      (named : s.cursor.id = Act.latestId first acts) (known : 0 ∉ first :: Act.replyIds acts)
      (answered : ∀ act ∈ acts, act.failure = none)
      (encoded : Request.encode (.kill ⟨id, [s.cursor.id]⟩) = .ok message)
      (told : events = .release :: @Event.send .own message s.cursor.timeout :: rest)
      (only : ∀ e ∈ rest, ¬ e.IsKill) : Settled first acts events
  /-- No close found the channel held, and no message gave up a cursor. -/
  | spared (unkilled : ∀ act ∈ acts, ¬ act.Kills) (quiet : ∀ e ∈ events, ¬ e.IsKill) :
      Settled first acts events

namespace Session

variable {shape : Shape}

/-- The channel is held, and so far everything has gone well. -/
structure Holding (first : Int64) (acts : List (Act shape)) (s : Session shape) : Prop where
  held : s.talk.channel.isSome
  live : s.cursor.closed = false
  named : s.cursor.id = Act.latestId first acts
  known : 0 ∉ first :: Act.replyIds acts
  answered : ∀ act ∈ acts, act.failure = none
  unkilled : ∀ act ∈ acts, ¬ act.Kills
  ordinary : ∀ e ∈ s.talk.events, e.Ordinary

/-- The channel has gone back. -/
structure Done (first : Int64) (acts : List (Act shape)) (s : Session shape) : Prop where
  back : s.talk.GivenBack
  closed : s.cursor.closed = true
  settled : Settled first acts s.talk.events

/-- What holds at every moment of a run, for what has been done so far. -/
structure Orderly (first : Int64) (reports : Failure → Prop) (acts : List (Act shape))
    (s : Session shape) : Prop where
  phase : Holding first acts s ∨ Done first acts s
  reports : ∀ failure, s.talk.Reports failure → reports failure
  fetches : ∀ t, .fetch t ∈ acts → t.talk.channel.isSome

end Session

/-! ## What is seen -/

/-- A request that is not to give cursors up is ordinary, and so is the wait for its reply. -/
theorem Event.Serves.ordinary {request : Request} {id : Int32} {timeout : Option UInt64} {e : Event}
    (h : e.Serves request id timeout) (other : request.opcode ≠ .killCursors) : e.Ordinary := by
  cases e with
  | select mode t => exact h.elim
  | release => exact h.elim
  | receive answered t => exact ⟨nofun, nofun⟩
  | send message t =>
    refine ⟨nofun, fun kill => other ?_⟩
    exact Opcode.number_injective ((Request.opcodeWord_encode h.2.1).symm.trans kill)

namespace Conversation

variable {seen : Event → Prop} {c c' : Conversation}

theorem Goes.ordinary (h : c.Goes seen c') (le : ∀ e, seen e → e.Ordinary)
    (before : ∀ e ∈ c.events, e.Ordinary) : ∀ e ∈ c'.events, e.Ordinary := by
  obtain ⟨more, eq, all⟩ := h.events
  intro e mem
  rw [eq] at mem
  rcases List.mem_append.mp mem with mem | mem
  · exact le e (all e mem)
  · exact before e mem

/-- Giving the channel back after nothing but ordinary events. -/
theorem givenBack_release (held : c.channel.isSome) (ordinary : ∀ e ∈ c.events, e.Ordinary) :
    c.release.GivenBack :=
  ⟨channel_release c, c.events, events_release_of_held held, fun mem => (ordinary _ mem).1 rfl⟩

theorem not_isKill_release (held : c.channel.isSome) (ordinary : ∀ e ∈ c.events, e.Ordinary) :
    ∀ e ∈ c.release.events, ¬ e.IsKill := by
  intro e mem
  rw [events_release_of_held held] at mem
  rcases List.mem_cons.mp mem with rfl | mem
  · exact nofun
  · exact (ordinary e mem).2

end Conversation

theorem Cursor.FetchSeen.ordinary {shape : Shape} {cursor : Cursor shape} {e : Event}
    (h : cursor.FetchSeen e) : e.Ordinary := by
  obtain ⟨id, serves⟩ := h
  exact serves.ordinary nofun

/-! ## Steps -/

/-- What holds of every act so far and of the next one holds of all. -/
theorem forall_mem_concat {α : Type} {motive : α → Prop} {as : List α} {a : α}
    (h : ∀ b ∈ as, motive b) (ha : motive a) : ∀ b ∈ as ++ [a], motive b := by
  intro b mem
  rcases List.mem_append.mp mem with mem | mem
  · exact h b mem
  · rw [List.mem_singleton.mp mem]
    exact ha

/-- Closing once the channel has gone back settles nothing anew. -/
theorem Settled.close {shape : Shape} {first : Int64} {acts : List (Act shape)}
    {events : List Event} {s : Session shape} (h : Settled first acts events)
    (released : s.talk.channel = none) : Settled first (acts ++ [.close s]) events := by
  have idle : ¬ (Act.close s).Kills := by
    show ¬ s.talk.channel.isSome
    rw [released]
    exact nofun
  cases h with
  | spared unkilled quiet => exact .spared (forall_mem_concat unkilled idle) quiet
  | killed before after once held others named known answered encoded told only =>
    refine .killed before (after ++ [.close s]) ?_ held ?_ ?_ ?_ ?_ encoded told only
    · rw [once, List.append_assoc, List.cons_append]
    · rw [← List.append_assoc]
      exact forall_mem_concat others idle
    · rw [Act.latestId_append_of_none rfl]
      exact named
    · rw [Act.replyIds_append_of_none rfl]
      exact known
    · exact forall_mem_concat answered rfl

namespace Session

variable {shape : Shape} {first : Int64} {acts : List (Act shape)} {s : Session shape}

/-- The cursor of the latest reply is one that the server knows. -/
theorem Holding.id_ne_zero (h : Holding first acts s) : s.cursor.id ≠ 0 := by
  intro zero
  refine h.known ?_
  rw [← zero, h.named]
  exact List.getLastD_mem_cons

/-- Closing while the channel is held gives the latest cursor up. -/
theorem Holding.close (h : Holding first acts s) : Done first (acts ++ [.close s]) s.close := by
  obtain ⟨id, message, encoded, told⟩ := close_of_held h.held h.id_ne_zero
  refine ⟨⟨channel_close s, _, told, ?_⟩, rfl, ?_⟩
  · intro mem
    rcases List.mem_cons.mp mem with eq | mem
    · cases eq
    · exact (h.ordinary _ mem).1 rfl
  · refine .killed acts [] rfl h.held ?_ ?_ ?_ ?_ encoded told ?_
    · rw [List.append_nil]
      exact h.unkilled
    · rw [Act.latestId_append_of_none rfl]
      exact h.named
    · rw [Act.replyIds_append_of_none rfl]
      exact h.known
    · exact forall_mem_concat h.answered rfl
    · exact fun e mem => (h.ordinary e mem).2

theorem Done.close (h : Done first acts s) : Done first (acts ++ [.close s]) s.close := by
  have same := close_of_released h.back.1
  refine ⟨?_, rfl, ?_⟩
  · rw [same]
    exact h.back
  · rw [same]
    exact h.settled.close h.back.1

/-- A fetch that fails gives only the channel back. -/
theorem Holding.failed {failure : Failure} {c : Conversation} (h : Holding first acts s)
    (failed : s.cursor.fetch s.talk = .error failure c) :
    Done first (acts ++ [.fetch s]) (s.fail failure c) := by
  have goes := (s.cursor.modest_answer.error (Cursor.fetch_eq_error_iff.mp failed)).1
  have held : c.channel.isSome := goes.held h.held
  have ordinary := goes.ordinary (fun e => Cursor.FetchSeen.ordinary) h.ordinary
  exact ⟨Conversation.givenBack_release held ordinary, rfl,
    .spared (forall_mem_concat h.unkilled id) (Conversation.not_isKill_release held ordinary)⟩

/-- A fetch that is answered goes on, or gives the channel back if it names no cursor. -/
theorem Holding.fetched {cursor : Cursor shape} {c : Conversation} (h : Holding first acts s)
    (fetched : s.cursor.fetch s.talk = .ok cursor c) :
    Holding first (acts ++ [.fetch s]) ⟨cursor, c⟩ ∨ Done first (acts ++ [.fetch s]) ⟨cursor, c⟩ := by
  obtain ⟨reply, values, m, answer, rfl, rfl⟩ := Cursor.fetch_eq_ok_iff.mp fetched
  have goes := s.cursor.modest_answer.ok answer
  have held : m.channel.isSome := goes.held h.held
  have ordinary := goes.ordinary (fun e => Cursor.FetchSeen.ordinary) h.ordinary
  have unkilled := forall_mem_concat h.unkilled (a := Act.fetch s) id
  have answered := Act.answered_fetch answer
  by_cases last : reply.cursorId = 0
  · -- the server has closed the cursor, so there is nothing to give up
    right
    have back : (s.cursor.accepted reply values m) =
        (m.notify (.fetched s.cursor.id (Int32.ofNat s.cursor.nextFetchSize)
          values.length)).release := if_pos last
    rw [back]
    refine ⟨Conversation.givenBack_release held ordinary, ?_,
      .spared unkilled (Conversation.not_isKill_release held ordinary)⟩
    simp [Cursor.extended, last]
  · left
    have kept : (s.cursor.accepted reply values m) =
        m.notify (.fetched s.cursor.id (Int32.ofNat s.cursor.nextFetchSize)
          values.length) := if_neg last
    rw [kept]
    refine ⟨held, ?_, ?_, ?_, ?_, unkilled, ordinary⟩
    · simp [Cursor.extended, last, h.live]
    · exact (Act.latestId_append_of_some answered first acts).symm
    · rw [Act.replyIds_append_of_some answered, ← List.cons_append]
      intro mem
      rcases List.mem_append.mp mem with mem | mem
      · exact h.known mem
      · exact last (List.mem_singleton.mp mem).symm
    · exact forall_mem_concat h.answered (Act.failure_fetch fetched)

/-- Handing out a result changes neither the channel nor what the server knows. -/
theorem Holding.taken (h : Holding first acts s) (rest : List shape.Carrier) :
    Holding first acts (s.taken rest) :=
  ⟨h.held, h.live, h.named, h.known, h.answered, h.unkilled, h.ordinary⟩

/-! ## Rounds and runs -/

variable {reports : Failure → Prop}

namespace Orderly

theorem close (h : Orderly first reports acts s) :
    Orderly first reports (acts ++ [.close s]) s.close where
  phase := .inr (h.phase.elim Holding.close Done.close)
  reports failure later := absurd later (Conversation.not_reports (channel_close s))
  fetches t mem := by
    rcases List.mem_append.mp mem with mem | mem
    · exact h.fetches t mem
    · cases List.mem_singleton.mp mem

theorem taken (h : Orderly first reports acts s) (rest : List shape.Carrier) :
    Orderly first reports acts (s.taken rest) where
  phase := h.phase.imp (·.taken rest) fun done => ⟨done.back, done.closed, done.settled⟩
  reports := h.reports
  fetches := h.fetches

theorem cancel (h : Orderly first reports acts s) : Orderly first reports acts s.cancel where
  phase := h.phase.imp
    (fun holding => ⟨holding.held, holding.live, holding.named, holding.known, holding.answered,
      holding.unkilled, holding.ordinary⟩)
    fun done => ⟨done.back, done.closed, done.settled⟩
  reports := h.reports
  fetches := h.fetches

/-- A cursor that is open holds its channel. -/
theorem holding (h : Orderly first reports acts s) (live : s.cursor.closed = false) :
    Holding first acts s := by
  rcases h.phase with holding | done
  · exact holding
  · rw [done.closed] at live
    cases live

theorem fetches_append (h : Orderly first reports acts s) (live : s.cursor.closed = false) :
    ∀ t, .fetch t ∈ acts ++ [.fetch s] → t.talk.channel.isSome := by
  intro t mem
  rcases List.mem_append.mp mem with mem | mem
  · exact h.fetches t mem
  · cases List.mem_singleton.mp mem
    exact (h.holding live).held

theorem failed {failure : Failure} {c : Conversation} (h : Orderly first reports acts s)
    (live : s.cursor.closed = false) (failed : s.cursor.fetch s.talk = .error failure c) :
    Orderly first reports (acts ++ [.fetch s]) (s.fail failure c) where
  phase := .inr ((h.holding live).failed failed)
  reports _ later := absurd later (Conversation.not_reports ((h.holding live).failed failed).back.1)
  fetches := h.fetches_append live

theorem fetched {cursor : Cursor shape} {c : Conversation} (h : Orderly first reports acts s)
    (live : s.cursor.closed = false) (fetched : s.cursor.fetch s.talk = .ok cursor c) :
    Orderly first reports (acts ++ [.fetch s]) ⟨cursor, c⟩ where
  phase := (h.holding live).fetched fetched
  reports failure later := by
    obtain ⟨reply, values, m, answer, rfl, rfl⟩ := Cursor.fetch_eq_ok_iff.mp fetched
    refine h.reports failure ((s.cursor.modest_answer.ok answer).reports failure ?_)
    exact Cursor.reports_of_accepted later
  fetches := h.fetches_append live

/-- A fetch never finds the channel gone. -/
theorem reports_of_fetch {c : Conversation} (h : Orderly first reports acts s)
    (live : s.cursor.closed = false)
    (failed : s.cursor.fetch s.talk = .error .channelReleased c) : reports .channelReleased := by
  have why := (s.cursor.modest_answer.error (Cursor.fetch_eq_error_iff.mp failed)).2
  cases why with
  | message inMessage => exact inMessage.elim
  | released none =>
    have held := (h.holding live).held
    rw [none] at held
    cases held
  | reported reported => exact h.reports _ reported

/-- A round keeps the order, and does not find the channel gone. -/
theorem round {more : List (Act shape)} {o : Output shape} {s' : Session shape}
    (h : Orderly first reports acts s) (round : Round s more o s') :
    Orderly first reports (acts ++ more) s' ∧
      (o = some (.error .channelReleased) → reports .channelReleased) := by
  -- along the fetches of the round; what was done before grows with each
  induction round generalizing acts with
  | limit reached => exact ⟨h.close, nofun⟩
  | last short here reached => exact ⟨(h.taken _).close, nofun⟩
  | item short here more =>
    rw [List.append_nil]
    exact ⟨h.taken _, nofun⟩
  | ended short empty closed =>
    rw [List.append_nil]
    exact ⟨h, nofun⟩
  | failed short empty live failed =>
    refine ⟨h.failed live failed, fun eq => ?_⟩
    cases eq
    exact h.reports_of_fetch live failed
  | fetched short empty live fetched rest ih =>
    rw [List.append_cons]
    exact ih (h.fetched live fetched)

/-- A run keeps the order, and never finds the channel gone. -/
theorem run {calls : List Call} {more : List (Act shape)} {os : List (Output shape)}
    {s' : Session shape} (h : Orderly first reports acts s) (run : Run s calls more os s') :
    Orderly first reports (acts ++ more) s' ∧
      (some (.error .channelReleased) ∈ os → reports .channelReleased) := by
  induction run generalizing acts with
  | done =>
    rw [List.append_nil]
    exact ⟨h, nofun⟩
  | next round rest ih =>
    obtain ⟨orderly, fine⟩ := h.round round
    obtain ⟨orderly', fine'⟩ := ih orderly
    rw [← List.append_assoc]
    refine ⟨orderly', fun mem => ?_⟩
    rcases List.mem_cons.mp mem with eq | mem
    · exact fine eq.symm
    · exact fine' mem
  | close rest ih =>
    rw [List.append_cons]
    exact ih h.close
  | cancel rest ih => exact ih h.cancel

end Orderly

/-- A run that ends with a close has given the channel back. -/
theorem channel_of_run_close {calls : List Call} {acts : List (Act shape)} {os : List (Output shape)}
    {s s' : Session shape} (run : Run s (calls ++ [.close]) acts os s') : s'.talk.channel = none := by
  induction calls generalizing s acts os with
  | nil =>
    cases run with
    | close rest =>
      cases rest
      exact channel_close s
  | cons call calls ih =>
    cases run with
    | next round rest => exact ih rest
    | close rest => exact ih rest
    | cancel rest => exact ih rest

end Session

/-! ## From the query to the drop of its cursor -/

/-- The start of an operation: there is no channel yet, and nothing has happened. -/
def Conversation.fresh (cancelled : Bool) (nextId : Int32) (notices : List Notice) : Conversation :=
  { cancelled := cancelled, nextId := nextId, notices := notices }

/-- The selection of a server or the channel to it may report a failure. -/
def Selection.Reports (selection : Selection) (failure : Failure) : Prop :=
  selection.failure = some failure ∨ selection.channel.Reports failure

/-- The end of a session: the channel went back once, the account of the cursor is settled, and whatever
was fetched was fetched over the channel. -/
structure Session.EndsOrderly {shape : Shape} (first : Int64) (reports : Failure → Prop)
    (acts : List (Act shape)) (outputs : List (Session.Output shape)) (s : Session shape) : Prop where
  back : s.talk.GivenBack
  settled : Settled first acts s.talk.events
  fetches : ∀ t, .fetch t ∈ acts → t.talk.channel.isSome
  reported : some (.error .channelReleased) ∈ outputs → reports .channelReleased

namespace Query

variable {shape : Shape} {q : Query shape} {selection : Selection} {c c' : Conversation}

/-- The query can be run, and a server is found. -/
def Selects (q : Query shape) (selection : Selection) (c : Conversation) : Prop :=
  ∃ plan m, q.validate = .ok plan ∧
    Talk.select selection plan.preference.mode plan.timeout c = .ok () m

/-- The reply to the first request, once a server is found. -/
def FirstReply (q : Query shape) (selection : Selection) (c : Conversation) (reply : Reply) : Prop :=
  ∃ plan m values m', q.validate = .ok plan ∧
    Talk.select selection plan.preference.mode plan.timeout c = .ok () m ∧
    plan.firstAnswer selection.channel.server m = .ok (reply, values) m'

/-- A query fails: if a server was found, its channel has gone back, and otherwise there was none. -/
structure FailsOrderly (q : Query shape) (selection : Selection) (start : Conversation)
    (failure : Failure) (c : Conversation) : Prop where
  back : q.Selects selection start → c.GivenBack
  untouched : ¬ q.Selects selection start → c.Untouched
  quiet : ∀ e ∈ c.events, ¬ e.IsKill
  reported : failure = .channelReleased → selection.Reports .channelReleased

theorem FirstSeen.ordinary {plan : Plan shape} {server : Server} {e : Event}
    (h : plan.FirstSeen server e) : e.Ordinary := by
  obtain ⟨id, serves⟩ := h
  exact serves.ordinary nofun

section Select

variable {mode : ReadMode} {timeout : Option UInt64} {m m' : Conversation} {cancelled : Bool}
  {nextId : Int32} {notices : List Notice} {plan : Plan shape} {server : Server} {failure : Failure}

/-- The channel that is found is the one to the server. -/
theorem reports_of_select (selected : Talk.select selection mode timeout c = .ok () m)
    (h : m.Reports failure) : selection.Reports failure := by
  rcases h with ⟨channel, eq, reports⟩
  rw [(Talk.of_select_eq_ok selected).1] at eq
  cases eq
  exact .inr reports

/-- What has happened once the first request is made. -/
theorem ordinary_of_select
    (selected : Talk.select selection mode timeout (.fresh cancelled nextId notices) = .ok () m)
    (goes : m.Goes (plan.FirstSeen server) m') : ∀ e ∈ m'.events, e.Ordinary := by
  refine goes.ordinary (fun e => FirstSeen.ordinary) ?_
  intro e mem
  rw [(Talk.of_select_eq_ok selected).2] at mem
  cases List.mem_singleton.mp mem
  exact ⟨nofun, nofun⟩

/-- A query that cannot be run has touched no channel. -/
theorem failsOrderly_of_invalid (invalid : q.validate = .error failure) :
    q.FailsOrderly selection (.fresh cancelled nextId notices) failure
      (.fresh cancelled nextId notices) where
  back selects := by
    rcases selects with ⟨plan, m, valid, -⟩
    rw [invalid] at valid
    cases valid
  untouched _ := ⟨rfl, nofun⟩
  quiet := nofun
  reported eq := by
    subst eq
    exact (q.failsInMessage_validate _ invalid).elim

/-- Neither has a query for which no server is found. -/
theorem failsOrderly_of_nowhere (valid : q.validate = .ok plan)
    (nowhere : Talk.select selection plan.preference.mode plan.timeout
      (.fresh cancelled nextId notices) = .error failure m) :
    q.FailsOrderly selection (.fresh cancelled nextId notices) failure m := by
  rcases Talk.of_select_eq_error nowhere with ⟨channel, ⟨more, events, all⟩, why⟩
  -- at most the question for a server has been recorded
  have only : ∀ e ∈ m.events, e = .select plan.preference.mode plan.timeout := by
    rw [events]
    intro e mem
    exact all e (List.append_nil more ▸ mem)
  refine ⟨?_, fun _ => ⟨channel, fun e mem => ⟨_, _, only e mem⟩⟩, ?_, ?_⟩
  · intro selects
    rcases selects with ⟨plan', m', valid', selected⟩
    rw [valid] at valid'
    cases valid'
    rw [nowhere] at selected
    cases selected
  · intro e mem
    rw [only e mem]
    exact nofun
  · intro eq
    subst eq
    rcases why with eq | reported
    · cases eq
    · exact .inl reported

/-- A query whose first request fails has given the channel back. -/
theorem failsOrderly_of_failed (valid : q.validate = .ok plan)
    (selected : Talk.select selection plan.preference.mode plan.timeout
      (.fresh cancelled nextId notices) = .ok () m)
    (failed : plan.firstAnswer server m = .error failure m') :
    q.FailsOrderly selection (.fresh cancelled nextId notices) failure
      (m'.notify (.queryFailed plan.collection server failure)).release := by
  rcases (plan.modest_firstAnswer server).error failed with ⟨goes, why⟩
  have held : m'.channel.isSome := goes.held (Talk.held_of_select selected)
  have ordinary := ordinary_of_select selected goes
  refine ⟨fun _ => Conversation.givenBack_release held ordinary, fun unselected => ?_,
    Conversation.not_isKill_release held ordinary, ?_⟩
  · exact absurd ⟨plan, m, valid, selected⟩ unselected
  · intro eq
    subst eq
    cases why with
    | message inMessage => exact inMessage.elim
    | reported reported => exact reports_of_select selected reported
    | released none =>
      have found := Talk.held_of_select selected
      rw [none] at found
      cases found

/-- A query that fails does so in order. -/
theorem failsOrderly_of_execute
    (h : q.execute selection (.fresh cancelled nextId notices) = .error failure c) :
    q.FailsOrderly selection (.fresh cancelled nextId notices) failure c := by
  rcases of_execute_eq_error h with ⟨invalid, rfl⟩ | ⟨plan, valid, nowhere | failing⟩
  · exact failsOrderly_of_invalid invalid
  · exact failsOrderly_of_nowhere valid nowhere
  · rcases failing with ⟨m, m', selected, failed, rfl⟩
    exact failsOrderly_of_failed valid selected failed

/-- A cursor that is opened is in order. -/
theorem orderly_of_execute {cursor : Cursor shape}
    (h : q.execute selection (.fresh cancelled nextId notices) = .ok cursor c) :
    ∃ reply, q.FirstReply selection (.fresh cancelled nextId notices) reply ∧
      Session.Orderly reply.cursorId selection.Reports [] ⟨cursor, c⟩ := by
  rcases execute_eq_ok_iff.mp h with
    ⟨plan, m, reply, values, m', valid, selected, answered, rfl, rfl⟩
  refine ⟨reply, ⟨plan, m, values, m', valid, selected, answered⟩, ?_⟩
  have goes := (plan.modest_firstAnswer _).ok answered
  have held : m'.channel.isSome := goes.held (Talk.held_of_select selected)
  have ordinary := ordinary_of_select selected goes
  have unkilled : ∀ act ∈ ([] : List (Act shape)), ¬ act.Kills := List.forall_mem_nil _
  have unfailed : ∀ act ∈ ([] : List (Act shape)), act.failure = none := List.forall_mem_nil _
  have unfetched (t : Session shape) (mem : .fetch t ∈ ([] : List (Act shape))) :
      t.talk.channel.isSome := absurd mem List.not_mem_nil
  by_cases last : reply.cursorId = 0
  · have started : Plan.started reply m' = m'.release := if_pos last
    rw [started]
    refine ⟨.inr ⟨Conversation.givenBack_release held ordinary, decide_eq_true last,
      .spared unkilled (Conversation.not_isKill_release held ordinary)⟩, ?_, unfetched⟩
    exact fun failure later => absurd later (Conversation.not_reports (Conversation.channel_release _))
  · have started : Plan.started reply m' = m' := if_neg last
    rw [started]
    refine ⟨.inl ⟨held, decide_eq_false last, rfl, ?_, unfailed, unkilled, ordinary⟩, ?_, unfetched⟩
    · exact fun mem => last (List.mem_singleton.mp mem).symm
    · exact fun failure later => reports_of_select selected (goes.reports failure later)

end Select

/-- A query takes its channel from the selection of a server and gives it back once. If the query fails,
the channel has gone back by then; otherwise its cursor may be used in whatever way, and is closed when it
is dropped. -/
theorem execute_lifecycle (q : Query shape) (selection : Selection) (cancelled : Bool)
    (nextId : Int32) (notices : List Notice) :
    match q.execute selection (.fresh cancelled nextId notices) with
    | .error failure c => q.FailsOrderly selection (.fresh cancelled nextId notices) failure c
    | .ok cursor c =>
      ∃ reply, q.FirstReply selection (.fresh cancelled nextId notices) reply ∧
        ∀ calls, ∃ acts outputs s,
          Session.play (calls ++ [.close]) ⟨cursor, c⟩ = (outputs, s) ∧
            Session.Run ⟨cursor, c⟩ (calls ++ [.close]) acts outputs s ∧
              Session.EndsOrderly reply.cursorId selection.Reports acts outputs s := by
  cases h : q.execute selection (.fresh cancelled nextId notices) with
  | error failure c => exact failsOrderly_of_execute h
  | ok cursor c =>
    obtain ⟨reply, first, orderly⟩ := orderly_of_execute h
    refine ⟨reply, first, fun calls => ?_⟩
    obtain ⟨acts, run⟩ := Session.exists_run_play (calls ++ [.close]) ⟨cursor, c⟩
    refine ⟨acts, _, _, rfl, run, ?_⟩
    obtain ⟨after, reported⟩ := orderly.run run
    rw [List.nil_append] at after
    rcases after.phase with holding | done
    · -- the last call is a close
      have held := holding.held
      rw [Session.channel_of_run_close run] at held
      cases held
    · exact ⟨done.back, done.settled, after.fetches, reported⟩

end Query

end DocumentClient
