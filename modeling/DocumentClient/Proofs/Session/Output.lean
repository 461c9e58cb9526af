import DocumentClient.Proofs.Session.Opening
import DocumentClient.Proofs.Session.Rounds

/-!
# What a caller gets

Whoever asks a cursor for one result after another gets what has arrived, in the order in which it
arrived and cut off at the limit; then the failure of a fetch, if there was one; and then nothing, time
and again.

The invariant `Handing` tells two phases apart. While results come, what has arrived is what was handed
out and what is buffered, and the limit is the results handed out and those that remain. Afterwards the
cursor is used up, and no call changes anything.

Results:
1. `Session.Going.round`, `Session.Spent.round`: one use of `next` in each phase.
2. `Session.exists_start_of_execute`: the cursor of a query starts as a new cursor.
3. `Session.delivers_of_play`: what a new cursor gives, use after use.
-/

namespace DocumentClient

variable {shape : Shape}

/-! ## Definitions -/

/-- The first results that a limit allows; zero allows all. -/
def cut {α : Type} (limit : Nat) (as : List α) : List α :=
  if 0 < limit then as.take limit else as

/-- A fetch is due: all that has arrived is handed out, the limit is not reached, and the latest reply
named a cursor. -/
structure Act.Due (cursor : Cursor shape) (before : List (Act shape)) (t : Session shape) : Prop where
  empty : t.cursor.batch = []
  count : t.cursor.totalReturned = (cursor.batch ++ Act.arrived before).length
  short : cursor.limit = 0 ∨ t.cursor.totalReturned < cursor.limit
  named : Act.latestId cursor.id before ≠ 0

/-- Every fetch was due. -/
def Act.AllDue (cursor : Cursor shape) (acts : List (Act shape)) : Prop :=
  ∀ before t after, acts = before ++ .fetch t :: after → Act.Due cursor before t

namespace Session

/-- The session of a new cursor. If the server has no more results than the first, the channel goes back
at once. -/
def start (cursor : Cursor shape) (channel : Channel) (c : Conversation) : Session shape where
  cursor :=
    { cursor with
      remaining := cursor.limit
      totalReturned := 0
      closed := cursor.id = 0 }
  talk :=
    if cursor.id = 0 then { c with channel := some channel }.release
    else { c with channel := some channel }

/-- What a caller gets who asks a new cursor for one result after another: results, failures and, so many
times, nothing. -/
structure Delivers (cursor : Cursor shape) (acts : List (Act shape)) (items : List shape.Carrier)
    (nothings : Nat) (outputs : List (Output shape)) (s : Session shape) : Prop where
  outputs : outputs = items.map (fun a => some (.ok a)) ++
    (Act.failures acts).map (fun failure => some (.error failure)) ++ List.replicate nothings none
  /-- Nothing is lost, and nothing comes twice. -/
  front : items <+: cut cursor.limit (cursor.batch ++ Act.arrived acts)
  all : Act.failures acts ≠ [] ∨ 0 < nothings →
    items = cut cursor.limit (cursor.batch ++ Act.arrived acts)
  once : (Act.failures acts).length ≤ 1
  due : Act.AllDue cursor acts
  count : s.cursor.totalReturned = items.length
  /-- Once a failure or nothing has come, nothing comes ever after, and nothing is done for it. -/
  afterwards : Act.failures acts ≠ [] ∨ 0 < nothings → s.cursor.isExhausted = true ∧
    ∀ n, play (List.replicate n .next) s = (List.replicate n none, s)

/-- Results still come. -/
structure Going (cursor : Cursor shape) (acts : List (Act shape)) (items : List shape.Carrier)
    (s : Session shape) : Prop where
  limit : s.cursor.limit = cursor.limit
  arrived : cursor.batch ++ Act.arrived acts = items ++ s.cursor.batch
  remaining : 0 < cursor.limit → s.cursor.remaining + items.length = cursor.limit
  short : s.cursor.limitReached = false
  count : s.cursor.totalReturned = items.length
  named : s.cursor.id = Act.latestId cursor.id acts
  closed : s.cursor.closed = decide (s.cursor.id = 0)
  released : s.cursor.closed = true → s.talk.channel = none
  unfailed : Act.failures acts = []
  due : Act.AllDue cursor acts

/-- The cursor is used up. -/
structure Spent (cursor : Cursor shape) (acts : List (Act shape)) (items : List shape.Carrier)
    (s : Session shape) : Prop where
  all : items = cut cursor.limit (cursor.batch ++ Act.arrived acts)
  count : s.cursor.totalReturned = items.length
  closed : s.cursor.closed = true
  empty : s.cursor.batch = []
  released : s.talk.channel = none
  once : (Act.failures acts).length ≤ 1
  due : Act.AllDue cursor acts

/-- What holds at every moment of a run, for what has been done and given so far. -/
inductive Handing (cursor : Cursor shape) (acts : List (Act shape)) (outputs : List (Output shape))
    (s : Session shape) : Prop
  | going {items} (h : Going cursor acts items s) (given : outputs = items.map fun a => some (.ok a))
  | spent {items} (nothings : Nat) (h : Spent cursor acts items s)
      (given : outputs = items.map (fun a => some (.ok a)) ++
        (Act.failures acts).map (fun failure => some (.error failure)) ++
          List.replicate nothings none)

end Session

/-! ## Lists of acts -/

/-- A place in a list that one more has been added to is the end of it or a place before. -/
theorem eq_append_cons_of_concat {α : Type} {as before after : List α} {a b : α}
    (h : as ++ [a] = before ++ b :: after) :
    (as = before ∧ a = b) ∨ ∃ between, as = before ++ b :: between := by
  rcases List.eq_nil_or_concat after with rfl | ⟨between, last, rfl⟩
  · obtain ⟨eq, same⟩ := List.append_inj' h rfl
    exact .inl ⟨eq, (List.cons.inj same).1⟩
  · have h' : as ++ [a] = (before ++ b :: between) ++ [last] := by simpa using h
    exact .inr ⟨between, (List.append_inj' h' rfl).1⟩

namespace Act

variable {cursor : Cursor shape} {acts : List (Act shape)} {act : Act shape} {s : Session shape}

theorem AllDue.close (h : AllDue cursor acts) : AllDue cursor (acts ++ [.close s]) := by
  intro before t after eq
  rcases eq_append_cons_of_concat eq with ⟨-, eq⟩ | ⟨between, eq⟩
  · cases eq
  · exact h before t between eq

theorem AllDue.fetch (h : AllDue cursor acts) (due : Due cursor acts s) :
    AllDue cursor (acts ++ [.fetch s]) := by
  intro before t after eq
  rcases eq_append_cons_of_concat eq with ⟨rfl, same⟩ | ⟨between, eq⟩
  · cases same
    exact due
  · exact h before t between eq

theorem arrived_append_of_none (h : act.answered = none) (acts : List (Act shape)) :
    arrived (acts ++ [act]) = arrived acts := by
  simp [arrived, h]

theorem arrived_append_of_some {p : Reply × List shape.Carrier} (h : act.answered = some p)
    (acts : List (Act shape)) : arrived (acts ++ [act]) = arrived acts ++ p.2 := by
  simp [arrived, h]

theorem failures_append_of_none (h : act.failure = none) (acts : List (Act shape)) :
    failures (acts ++ [act]) = failures acts := by
  simp [failures, h]

theorem failures_append_of_some {failure : Failure} (h : act.failure = some failure)
    (acts : List (Act shape)) : failures (acts ++ [act]) = failures acts ++ [failure] := by
  simp [failures, h]

end Act

/-! ## Steps -/

namespace Cursor

theorem limitReached_eq_false_iff {cursor : Cursor shape} :
    cursor.limitReached = false ↔ (0 < cursor.limit → cursor.remaining ≠ 0) := by
  simp [limitReached]

theorem limitReached_eq_true_iff {cursor : Cursor shape} :
    cursor.limitReached = true ↔ 0 < cursor.limit ∧ cursor.remaining = 0 := by
  simp [limitReached]

end Cursor

namespace Session

variable {cursor : Cursor shape} {acts : List (Act shape)} {items : List shape.Carrier}
  {s : Session shape}

namespace Going

/-- The limit is the results handed out, the one at hand and those that remain after it. -/
theorem remaining_taken (h : Going cursor acts items s) (rest : List shape.Carrier)
    (limited : 0 < cursor.limit) :
    (s.taken rest).cursor.remaining + (items.length + 1) = cursor.limit := by
  rw [← h.limit] at limited
  have one : (s.taken rest).cursor.remaining = s.cursor.remaining - 1 := if_pos limited
  have some := Cursor.limitReached_eq_false_iff.mp h.short limited
  have remaining := h.remaining (h.limit ▸ limited)
  omega

/-- A fetch is only made when it is due. -/
theorem due_fetch (h : Going cursor acts items s) (empty : s.cursor.batch = [])
    (live : s.cursor.closed = false) : Act.Due cursor acts s where
  empty := empty
  count := by rw [h.count, h.arrived, empty, List.append_nil]
  short := by
    have short := Cursor.limitReached_eq_false_iff.mp h.short
    have remaining := h.remaining
    rw [h.limit] at short
    rw [h.count]
    omega
  named := by
    have known := h.closed
    rw [live] at known
    rw [← h.named]
    exact of_decide_eq_false known.symm

/-- Handing a result out without reaching the limit. -/
theorem item {a : shape.Carrier} {rest : List shape.Carrier} (h : Going cursor acts items s)
    (here : s.cursor.batch = a :: rest) (more : (s.taken rest).cursor.limitReached = false) :
    Going cursor acts (items ++ [a]) (s.taken rest) where
  limit := h.limit
  arrived := by
    rw [h.arrived, here]
    exact List.append_cons items a rest
  remaining limited := by
    rw [List.length_append]
    exact h.remaining_taken rest limited
  short := more
  count := by
    rw [List.length_append, ← h.count]
    rfl
  named := h.named
  closed := h.closed
  released := h.released
  unfailed := h.unfailed
  due := h.due

/-- Handing out the last result that the limit allows. -/
theorem last {a : shape.Carrier} {rest : List shape.Carrier} (h : Going cursor acts items s)
    (here : s.cursor.batch = a :: rest) (reached : (s.taken rest).cursor.limitReached = true) :
    Spent cursor (acts ++ [.close (s.taken rest)]) (items ++ [a]) (s.taken rest).close where
  all := by
    obtain ⟨limited, none⟩ := Cursor.limitReached_eq_true_iff.mp reached
    have limited' : 0 < cursor.limit := h.limit ▸ limited
    have full := h.remaining_taken rest limited'
    rw [none, Nat.zero_add] at full
    -- with this result as many are handed out as the limit allows; the rest of the batch is cut off
    have whole : (items ++ [a]).length = cursor.limit := by
      rw [List.length_append]
      exact full
    rw [Act.arrived_append_of_none rfl, h.arrived, here, List.append_cons items a rest]
    unfold cut
    rw [if_pos limited']
    exact (List.take_left' whole).symm
  count := by
    rw [List.length_append, ← h.count]
    rfl
  closed := rfl
  empty := rfl
  released := channel_close _
  once := by
    rw [Act.failures_append_of_none rfl, h.unfailed]
    exact Nat.zero_le _
  due := h.due.close

theorem length_le (h : Going cursor acts items s) (limited : 0 < cursor.limit) :
    items.length ≤ cursor.limit := by
  rw [← h.remaining limited]
  exact Nat.le_add_left _ _

/-- What has been handed out is the front of what has arrived. -/
theorem front (h : Going cursor acts items s) :
    items <+: cut cursor.limit (cursor.batch ++ Act.arrived acts) := by
  rw [h.arrived]
  unfold cut
  split
  · next limited => exact List.prefix_take_iff.mpr ⟨List.prefix_append _ _, h.length_le limited⟩
  · exact List.prefix_append _ _

/-- If nothing is buffered, all that has arrived is handed out. -/
theorem cut_eq (h : Going cursor acts items s) (empty : s.cursor.batch = []) :
    items = cut cursor.limit (cursor.batch ++ Act.arrived acts) := by
  rw [h.arrived, empty, List.append_nil]
  unfold cut
  split
  · next limited => exact (List.take_of_length_le (h.length_le limited)).symm
  · rfl

theorem ended (h : Going cursor acts items s) (empty : s.cursor.batch = [])
    (closed : s.cursor.closed = true) : Spent cursor acts items s where
  all := h.cut_eq empty
  count := h.count
  closed := closed
  empty := empty
  released := h.released closed
  once := by
    rw [h.unfailed]
    exact Nat.zero_le _
  due := h.due

theorem failed {failure : Failure} {c : Conversation} (h : Going cursor acts items s)
    (empty : s.cursor.batch = []) (live : s.cursor.closed = false)
    (failed : s.cursor.fetch s.talk = .error failure c) :
    Spent cursor (acts ++ [.fetch s]) items (s.fail failure c) where
  all := by
    rw [Act.arrived_append_of_none (Act.answered_fetch_of_error failed)]
    exact h.cut_eq empty
  count := h.count
  closed := rfl
  empty := empty
  released := Conversation.channel_release _
  once := by
    rw [Act.failures_append_of_some (Act.failure_fetch_of_error failed), h.unfailed]
    exact Nat.le_refl _
  due := h.due.fetch (h.due_fetch empty live)

theorem fetched {cursor' : Cursor shape} {c : Conversation} (h : Going cursor acts items s)
    (empty : s.cursor.batch = []) (live : s.cursor.closed = false)
    (fetched : s.cursor.fetch s.talk = .ok cursor' c) :
    Going cursor (acts ++ [.fetch s]) items ⟨cursor', c⟩ := by
  obtain ⟨reply, values, m, answer, rfl, rfl⟩ := Cursor.fetch_eq_ok_iff.mp fetched
  have answered := Act.answered_fetch answer
  exact {
    limit := h.limit
    arrived := by
      rw [Act.arrived_append_of_some answered, ← List.append_assoc, h.arrived, List.append_assoc]
      rfl
    remaining := h.remaining
    short := h.short
    count := h.count
    named := (Act.latestId_append_of_some answered _ _).symm
    closed := by
      show (s.cursor.closed || decide (reply.cursorId = 0)) = decide (reply.cursorId = 0)
      rw [live, Bool.false_or]
    released := fun closed => by
      have last : reply.cursorId = 0 := by simpa [Cursor.extended, live] using closed
      have back : s.cursor.accepted reply values m = Conversation.release _ := if_pos last
      rw [back]
      exact Conversation.channel_release _
    unfailed := by
      rw [Act.failures_append_of_none (Act.failure_fetch fetched), h.unfailed]
    due := h.due.fetch (h.due_fetch empty live) }

end Going

namespace Spent

/-- Closing a cursor that is used up changes nothing. -/
theorem close_eq (h : Spent cursor acts items s) : s.close = s := by
  have same : s.close.cursor = s.cursor := by
    show { s.cursor with closed := true, batch := [] } = s.cursor
    rw [← h.closed, ← h.empty]
  calc s.close
    _ = ⟨s.close.cursor, s.close.talk⟩ := rfl
    _ = ⟨s.cursor, s.talk⟩ := by rw [same, close_of_released h.released]

/-- A cursor that is used up gives nothing and stays as it is. -/
theorem round {more : List (Act shape)} {o : Output shape} {s' : Session shape}
    (h : Spent cursor acts items s) (round : Round s more o s') :
    o = none ∧ s' = s ∧ Spent cursor (acts ++ more) items s ∧
      Act.failures (acts ++ more) = Act.failures acts := by
  cases round with
  | limit reached =>
    have failures : Act.failures (acts ++ [.close s]) = Act.failures acts :=
      Act.failures_append_of_none rfl acts
    refine ⟨rfl, h.close_eq, ⟨?_, h.count, h.closed, h.empty, h.released, ?_, h.due.close⟩, failures⟩
    · rw [Act.arrived_append_of_none rfl]
      exact h.all
    · rw [failures]
      exact h.once
  | ended short empty closed =>
    rw [List.append_nil]
    exact ⟨rfl, rfl, h, rfl⟩
  | last short here reached =>
    rw [h.empty] at here
    cases here
  | item short here more =>
    rw [h.empty] at here
    cases here
  | failed short empty live failed =>
    rw [h.closed] at live
    cases live
  | fetched short empty live fetched rest =>
    rw [h.closed] at live
    cases live

theorem next_eq (h : Spent cursor acts items s) : s.next = (none, s) := by
  obtain ⟨more, round⟩ := exists_round_iff.mpr (rfl : s.next = (s.next.1, s.next.2))
  obtain ⟨nothing, same, -⟩ := h.round round
  exact Prod.ext nothing same

theorem play_eq (h : Spent cursor acts items s) (n : Nat) :
    play (List.replicate n .next) s = (List.replicate n none, s) := by
  induction n with
  | zero => rfl
  | succ n ih =>
    rw [List.replicate_succ, List.replicate_succ, play, h.next_eq]
    dsimp only
    rw [ih]

end Spent

/-! ## Runs -/

theorem Going.round {more : List (Act shape)} {o : Output shape} {s' : Session shape}
    (h : Going cursor acts items s) (round : Round s more o s') {outputs : List (Output shape)}
    (given : outputs = items.map fun a => some (.ok a)) :
    Handing cursor (acts ++ more) (outputs ++ [o]) s' := by
  -- along the fetches of the round; none of them hands anything out
  induction round generalizing acts with
  | limit reached =>
    rw [h.short] at reached
    cases reached
  | last short here reached =>
    refine .spent 0 (h.last here reached) ?_
    rw [Act.failures_append_of_none rfl, h.unfailed, given]
    simp
  | item short here more =>
    rw [List.append_nil]
    refine .going (h.item here more) ?_
    rw [given]
    simp
  | ended short empty closed =>
    rw [List.append_nil]
    refine .spent 1 (h.ended empty closed) ?_
    rw [h.unfailed, given]
    simp
  | failed short empty live failed =>
    refine .spent 0 (h.failed empty live failed) ?_
    rw [Act.failures_append_of_some (Act.failure_fetch_of_error failed), h.unfailed, given]
    simp
  | fetched short empty live fetched rest ih =>
    rw [List.append_cons]
    exact ih (h.fetched empty live fetched)

theorem Handing.round {more : List (Act shape)} {outputs : List (Output shape)} {o : Output shape}
    {s' : Session shape} (h : Handing cursor acts outputs s) (round : Round s more o s') :
    Handing cursor (acts ++ more) (outputs ++ [o]) s' := by
  cases h with
  | going h given => exact h.round round given
  | @spent items nothings h given =>
    obtain ⟨rfl, rfl, still, failures⟩ := h.round round
    refine .spent (nothings + 1) still ?_
    rw [failures, given, List.append_assoc, List.replicate_succ']

theorem Handing.cancel {outputs : List (Output shape)} (h : Handing cursor acts outputs s) :
    Handing cursor acts outputs s.cancel := by
  cases h with
  | going h given =>
    exact .going ⟨h.limit, h.arrived, h.remaining, h.short, h.count, h.named, h.closed, h.released,
      h.unfailed, h.due⟩ given
  | spent nothings h given =>
    exact .spent nothings ⟨h.all, h.count, h.closed, h.empty, h.released, h.once, h.due⟩ given

/-- A run without a close hands out what has arrived. -/
theorem Handing.run {calls : List Call} {more : List (Act shape)} {outputs os : List (Output shape)}
    {s' : Session shape} (h : Handing cursor acts outputs s) (run : Run s calls more os s')
    (unclosed : .close ∉ calls) : Handing cursor (acts ++ more) (outputs ++ os) s' := by
  induction run generalizing acts outputs with
  | done =>
    rw [List.append_nil, List.append_nil]
    exact h
  | next round rest ih =>
    rw [← List.append_assoc, List.append_cons]
    exact ih (h.round round) fun mem => unclosed (List.mem_cons_of_mem _ mem)
  | close rest ih => exact absurd List.mem_cons_self unclosed
  | cancel rest ih => exact ih h.cancel fun mem => unclosed (List.mem_cons_of_mem _ mem)

/-- A new cursor has handed out nothing yet. -/
theorem handing_start (cursor : Cursor shape) (channel : Channel) (c : Conversation) :
    Handing cursor [] [] (start cursor channel c) := by
  have released : (start cursor channel c).cursor.closed = true →
      (start cursor channel c).talk.channel = none := by
    intro closed
    have last : cursor.id = 0 := of_decide_eq_true closed
    have back : (start cursor channel c).talk = Conversation.release _ := if_pos last
    rw [back]
    exact Conversation.channel_release _
  have going : Going cursor [] [] (start cursor channel c) := by
    refine ⟨rfl, List.append_nil _, fun _ => rfl, ?_, rfl, rfl, rfl, released, rfl, ?_⟩
    · exact Cursor.limitReached_eq_false_iff.mpr Nat.ne_of_gt
    · intro before t after eq
      exact absurd eq (by simp)
  exact .going going rfl

/-- What has been handed out is what a caller gets. -/
theorem Handing.delivers {outputs : List (Output shape)} (h : Handing cursor acts outputs s) :
    ∃ items nothings, Delivers cursor acts items nothings outputs s := by
  cases h with
  | @going items h given =>
    refine ⟨items, 0, ?_, h.front, ?_, ?_, h.due, h.count, ?_⟩
    · rw [h.unfailed, given]
      simp
    · rintro (failed | some)
      · exact absurd h.unfailed failed
      · cases some
    · rw [h.unfailed]
      exact Nat.zero_le _
    · rintro (failed | some)
      · exact absurd h.unfailed failed
      · cases some
  | @spent items nothings h given =>
    refine ⟨items, nothings, given, ?_, fun _ => h.all, h.once, h.due, h.count, fun _ => ?_⟩
    · exact ⟨[], (List.append_nil _).trans h.all⟩
    · refine ⟨?_, h.play_eq⟩
      simp [Cursor.isExhausted, h.closed, h.empty]

/-- The cursor of a query starts as a new cursor. -/
theorem exists_start_of_execute {q : Query shape} {selection : Selection} {c c' : Conversation}
    {cursor : Cursor shape} (h : q.execute selection c = .ok cursor c') :
    ∃ plan, ∃ reply : Reply, ∃ values channel m, q.validate = .ok plan ∧
      start (plan.cursor reply.cursorId values) channel m = ⟨cursor, c'⟩ := by
  obtain ⟨plan, m, reply, values, m', valid, selected, answered, rfl, rfl⟩ :=
    Query.execute_eq_ok_iff.mp h
  have goes := (plan.modest_firstAnswer _).ok answered
  have held : m'.channel.isSome := goes.held (Talk.held_of_select selected)
  obtain ⟨channel, hc⟩ := Option.isSome_iff_exists.mp held
  refine ⟨plan, reply, values, channel, m', valid, ?_⟩
  have same : { m' with channel := some channel } = m' := by rw [← hc]
  unfold start
  rw [same]
  rfl

/-- Whoever asks a new cursor for results, and does not close it, gets what has arrived in order and cut
off at the limit, then the failure of a fetch if there was one, and then nothing. -/
theorem delivers_of_play (cursor : Cursor shape) (channel : Channel) (c : Conversation)
    (calls : List Call) (unclosed : .close ∉ calls) :
    ∃ acts outputs s items nothings, play calls (start cursor channel c) = (outputs, s) ∧
      Run (start cursor channel c) calls acts outputs s ∧
        Delivers cursor acts items nothings outputs s := by
  obtain ⟨acts, run⟩ := exists_run_play calls (start cursor channel c)
  have handing := (handing_start cursor channel c).run run unclosed
  obtain ⟨items, nothings, delivers⟩ := handing.delivers
  exact ⟨acts, _, _, items, nothings, rfl, run, delivers⟩

/-- A cursor with one result, of which the server has more. -/
def sampleCursor : Cursor .document where
  collection := ⟨"shop", "customers", by cbv⟩
  id := 5
  limit := 5
  remaining := 5
  pageSize := 0
  batch := [⟨[("a", .null)]⟩]
  codec := .document
  registry := .default
  timeout := none

/-- A reply to the request with the number 7: two documents, and the cursor stays open. -/
def sampleReply : ByteArray :=
  ⟨#[46, 0, 0, 0, 3, 0, 0, 0, 7, 0, 0, 0, 1, 0, 0, 0,
    0, 0, 0, 0, 5, 0, 0, 0, 0, 0, 0, 0, 0, 0, 0, 0, 2, 0, 0, 0,
    5, 0, 0, 0, 0, 5, 0, 0, 0, 0]⟩

/-- A channel that delivers this reply, and then the connection is lost. -/
def sampleChannel : Channel where
  server := ⟨"localhost:27017", .standalone⟩
  deliveries := [{ answer := fun _ => .ok sampleReply }]
  silence := .reported .connection "connection reset"

def sampleStart : Session .document :=
  start sampleCursor sampleChannel { nextId := 7 }

/-- The first fetch is answered, the second one fails. -/
theorem delivers_of_play_sample :
    .close ∉ [Call.next, .next, .next, .next, .next] ∧
      ∃ acts outputs s items nothings,
        play [.next, .next, .next, .next, .next] sampleStart = (outputs, s) ∧
          outputs = [some (.ok ⟨[("a", .null)]⟩), some (.ok .empty), some (.ok .empty),
            some (.error (.reported .connection "connection reset")), none] ∧
            Run sampleStart [.next, .next, .next, .next, .next] acts outputs s ∧
              Delivers sampleCursor acts items nothings outputs s := by
  have unclosed : .close ∉ [Call.next, .next, .next, .next, .next] := by decide
  obtain ⟨acts, outputs, s, items, nothings, played, run, delivers⟩ :=
    delivers_of_play sampleCursor sampleChannel { nextId := 7 } _ unclosed
  have given : (play [.next, .next, .next, .next, .next] sampleStart).1 =
      [some (.ok ⟨[("a", .null)]⟩), some (.ok .empty), some (.ok .empty),
        some (.error (.reported .connection "connection reset")), none] := by
    cbv
  have stated : play [.next, .next, .next, .next, .next] sampleStart = (outputs, s) := played
  rw [stated] at given
  exact ⟨unclosed, acts, outputs, s, items, nothings, stated, given, run, delivers⟩

end Session

end DocumentClient
