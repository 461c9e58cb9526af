import DocumentClient.Proofs.Session.Sizing

/-!
# A caller who has cancelled

A caller may cancel between any two calls and go on to use the cursor. What has arrived is still handed out,
as far as the limit goes. Nothing more is asked for: the fetch that would come next fails before it reaches
the channel, and the channel goes back. A cursor that the server still knows is given up if a close or the
limit comes before that fetch, since the message that gives it up does not go under the token of the caller.

* `Session.ready`: what has arrived and the limit lets through.
* `Session.answersLeft`: what `next` still gives before it gives nothing for good.
* `Session.Parting`: what becomes of the channel, by whether the failure, a close or the limit comes first.

Results:
1. `Session.Steady.play`: a session at any moment of any use holds its channel iff its cursor is open.
2. `Session.Leaving.round`: one use of `next` after the caller has cancelled.
3. `Session.unwinds_of_play`, `Query.unwinds_of_execute`: any use of a cursor after the caller has cancelled.
-/

namespace DocumentClient

open Outcome

variable {shape : Shape}

namespace Cursor

/-- Whoever has cancelled asks for nothing more. -/
theorem fetch_of_cancelled {cursor : Cursor shape} {c : Conversation} (cancelled : c.cancelled = true) :
    cursor.fetch c = .error .cancelled c := by
  have stopped : Talk.proceed c = .error .cancelled c :=
    Talk.proceed_eq_error_iff.mpr ⟨cancelled, rfl, rfl⟩
  exact bind_eq_error_iff.mpr (.inl stopped)

end Cursor

/-! ## Definitions -/

/-- How often `next` is called before the first close. -/
def Call.asks (calls : List Call) : Nat :=
  (calls.takeWhile (· ≠ .close)).count .next

namespace Call

theorem asks_next (calls : List Call) : asks (.next :: calls) = asks calls + 1 := by
  simp [asks]

theorem asks_close (calls : List Call) : asks (.close :: calls) = 0 := by
  simp [asks]

end Call

namespace Session

/-- What has arrived and the limit lets through. -/
def ready (s : Session shape) : List shape.Carrier :=
  if 0 < s.cursor.limit then s.cursor.batch.take s.cursor.remaining else s.cursor.batch

/-- Whether a fetch comes after the results that are ready: the cursor is open and they do not reach the
limit. -/
def unmet (s : Session shape) : Bool :=
  !s.cursor.closed && (s.cursor.limit = 0 || s.cursor.batch.length < s.cursor.remaining)

/-- What `next` still gives to a caller who has cancelled, before it gives nothing for good. -/
def answersLeft (s : Session shape) : List (Output shape) :=
  s.ready.map (fun a => some (.ok a)) ++ if s.unmet then [some (.error .cancelled)] else []

/-- What becomes of the channel when a caller has cancelled and goes on with some calls. -/
inductive Parting (s : Session shape) (calls : List Call) (s' : Session shape) : Prop
  /-- It had gone back before. -/
  | already (closed : s.cursor.closed = true) (released : s'.talk.channel = none)
      (same : s'.talk.events = s.talk.events)
  /-- Neither the failure nor a close nor the limit has come yet. -/
  | waiting (live : s.cursor.closed = false) (before : Call.asks calls < s.answersLeft.length)
      (unclosed : .close ∉ calls) (held : s'.talk.channel.isSome)
      (same : s'.talk.events = s.talk.events)
  /-- The failure came first, and the channel went back without more ado. -/
  | failed (unmet : s.unmet = true) (asked : s.answersLeft.length ≤ Call.asks calls)
      (released : s'.talk.channel = none) (told : s'.talk.events = .release :: s.talk.events)
  /-- A close or the limit came first, and the cursor was given up under a token of its own. -/
  | killed {id : Int32} {message : ByteArray} (live : s.cursor.closed = false)
      (known : s.cursor.id ≠ 0)
      (first : if Call.asks calls < s.answersLeft.length then .close ∈ calls else s.unmet = false)
      (released : s'.talk.channel = none)
      (encoded : Request.encode (.kill ⟨id, [s.cursor.id]⟩) = .ok message)
      (told : s'.talk.events = .release :: @Event.send .own message s.cursor.timeout :: s.talk.events)

/-- What follows once a caller has cancelled, for some calls and what they give. -/
structure Unwinds (s : Session shape) (calls : List Call) (outputs : List (Output shape))
    (s' : Session shape) : Prop where
  /-- Before the first close the answers that are left come in order; all else is nothing. -/
  outputs : outputs =
    (s.answersLeft.take (Call.asks calls)).rightpad (calls.count .next) none
  /-- Nothing more is asked for. -/
  unasked : ∃ more, s'.talk.events = more ++ s.talk.events ∧ ∀ e ∈ more, ¬ e.IsMore
  parting : Parting s calls s'
  /-- The token under which a cursor is given up is not cancelled. -/
  token : ∀ c : Conversation, c.isCancelled .own = false

/-- What holds between any two calls. -/
structure Steady (s : Session shape) : Prop where
  held : s.cursor.closed = false → s.talk.channel.isSome
  known : s.cursor.closed = false → s.cursor.id ≠ 0
  short : s.cursor.closed = false → s.cursor.limitReached = false
  released : s.cursor.closed = true → s.talk.channel = none

/-- The same, once the caller has cancelled. -/
structure Leaving (s : Session shape) : Prop extends Steady s where
  cancelled : s.cursor.closed = false → s.talk.cancelled = true

/-! ## Between two calls -/

variable {s s' : Session shape} {acts : List (Act shape)} {o : Output shape}

/-- A cursor that has been closed has no channel. -/
theorem Steady.of_closed (closed : s.cursor.closed = true) (released : s.talk.channel = none) :
    Steady s where
  held live := absurd (closed.symm.trans live) nofun
  known live := absurd (closed.symm.trans live) nofun
  short live := absurd (closed.symm.trans live) nofun
  released _ := released

theorem steady_close (s : Session shape) : Steady s.close :=
  .of_closed rfl (channel_close s)

theorem steady_fail (s : Session shape) (failure : Failure) (c : Conversation) :
    Steady (s.fail failure c) :=
  .of_closed rfl (Conversation.channel_release _)

namespace Steady

theorem cancel (h : Steady s) : Steady s.cancel :=
  ⟨h.held, h.known, h.short, h.released⟩

theorem fetched {cursor : Cursor shape} {c : Conversation} (h : Steady s)
    (live : s.cursor.closed = false) (fetched : s.cursor.fetch s.talk = .ok cursor c) :
    Steady ⟨cursor, c⟩ := by
  obtain ⟨reply, values, m, answer, rfl, rfl⟩ := Cursor.fetch_eq_ok_iff.mp fetched
  by_cases last : reply.cursorId = 0
  · have back : s.cursor.accepted reply values m = Conversation.release _ := if_pos last
    rw [back]
    exact .of_closed (by simp [Cursor.extended, last]) (Conversation.channel_release _)
  · have kept : s.cursor.accepted reply values m = Conversation.notify m _ := if_neg last
    have held : m.channel.isSome := (s.cursor.modest_answer.ok answer).held (h.held live)
    rw [kept]
    refine ⟨fun _ => held, fun _ => last, fun _ => h.short live, fun closed => ?_⟩
    simp [Cursor.extended, last, live] at closed

theorem round (h : Steady s) (round : Round s acts o s') : Steady s' := by
  induction round with
  | limit reached => exact steady_close _
  | last short here reached => exact steady_close _
  | item short here more => exact ⟨h.held, h.known, fun _ => more, h.released⟩
  | ended short empty closed => exact h
  | failed short empty live failed => exact steady_fail _ _ _
  | fetched short empty live fetched rest ih => exact ih (h.fetched live fetched)

theorem next (h : Steady s) : Steady s.next.2 := by
  obtain ⟨acts, round⟩ := exists_round_iff.mpr (rfl : s.next = (s.next.1, s.next.2))
  exact h.round round

/-- However a cursor is used, it holds its channel as long as it is open. -/
theorem play (h : Steady s) (calls : List Call) : Steady (s.play calls).2 := by
  induction calls generalizing s with
  | nil => exact h
  | cons call calls ih =>
    cases call with
    | next => exact ih h.next
    | close => exact ih (steady_close s)
    | cancel => exact ih h.cancel

end Steady

/-- A new cursor is open if the server has more results, and then it holds the channel. -/
theorem steady_start (cursor : Cursor shape) (channel : Channel) (c : Conversation) :
    Steady (start cursor channel c) := by
  by_cases last : cursor.id = 0
  · have back : (start cursor channel c).talk = Conversation.release _ := if_pos last
    refine .of_closed (decide_eq_true last) ?_
    rw [back]
    exact Conversation.channel_release _
  · have kept : (start cursor channel c).talk = { c with channel := some channel } := if_neg last
    refine ⟨fun _ => ?_, fun _ => last, fun _ => ?_, fun closed => ?_⟩
    · rw [kept]
      rfl
    · exact Cursor.limitReached_eq_false_iff.mpr Nat.ne_of_gt
    · exact absurd (of_decide_eq_true closed) last

theorem Steady.leaving (h : Steady s) : Leaving s.cancel :=
  { h.cancel with cancelled := fun _ => rfl }

theorem Leaving.of_closed (closed : s.cursor.closed = true) (released : s.talk.channel = none) :
    Leaving s :=
  { Steady.of_closed closed released with cancelled := fun live => absurd (closed.symm.trans live) nofun }

/-! ## What is left to be given -/

theorem unmet_of_reached (reached : s.cursor.limitReached = true) : s.unmet = false := by
  obtain ⟨limited, none⟩ := Cursor.limitReached_eq_true_iff.mp reached
  simp [unmet, none, Nat.ne_of_gt limited]

theorem answersLeft_of_reached (reached : s.cursor.limitReached = true) : s.answersLeft = [] := by
  obtain ⟨limited, none⟩ := Cursor.limitReached_eq_true_iff.mp reached
  simp [answersLeft, ready, unmet_of_reached reached, none, limited]

theorem answersLeft_of_used_up (closed : s.cursor.closed = true) (empty : s.cursor.batch = []) :
    s.answersLeft = [] := by
  simp [answersLeft, ready, unmet, closed, empty]

/-- Where a fetch would come next, it fails, and that is all. -/
theorem unmet_of_due (live : s.cursor.closed = false) (short : s.cursor.limitReached = false)
    (empty : s.cursor.batch = []) : s.unmet = true := by
  have some := Cursor.limitReached_eq_false_iff.mp short
  simp only [unmet, live, empty, List.length_nil, Bool.not_false, Bool.true_and, Bool.or_eq_true,
    decide_eq_true_eq]
  omega

theorem answersLeft_of_due (live : s.cursor.closed = false) (short : s.cursor.limitReached = false)
    (empty : s.cursor.batch = []) : s.answersLeft = [some (.error .cancelled)] := by
  simp [answersLeft, ready, unmet_of_due live short empty, empty]

section Taken

variable {a : shape.Carrier} {rest : List shape.Carrier}

/-- Handing a result out does not change whether a fetch comes after those that are ready. -/
theorem unmet_taken (here : s.cursor.batch = a :: rest) : (s.taken rest).unmet = s.unmet := by
  unfold unmet taken
  rw [here, List.length_cons]
  by_cases limited : 0 < s.cursor.limit
  · simp only [if_pos limited, Nat.lt_sub_iff_add_lt]
  · simp only [Nat.eq_zero_of_not_pos limited, decide_true, Bool.true_or]

theorem ready_taken (short : s.cursor.limitReached = false) (here : s.cursor.batch = a :: rest) :
    s.ready = a :: (s.taken rest).ready := by
  have some := Cursor.limitReached_eq_false_iff.mp short
  unfold ready taken
  rw [here]
  by_cases limited : 0 < s.cursor.limit
  · obtain ⟨n, one⟩ := Nat.exists_eq_succ_of_ne_zero (some limited)
    simp only [if_pos limited, one, Nat.succ_eq_add_one, Nat.add_sub_cancel]
    exact List.take_succ_cons
  · simp only [if_neg limited]

/-- Handing a result out gives the first of the answers that are left. -/
theorem answersLeft_taken (short : s.cursor.limitReached = false)
    (here : s.cursor.batch = a :: rest) :
    s.answersLeft = some (.ok a) :: (s.taken rest).answersLeft := by
  unfold answersLeft
  rw [unmet_taken here, ready_taken short here]
  rfl

end Taken

/-- As long as the cursor is open, something is left. -/
theorem answersLeft_pos (h : Steady s) (live : s.cursor.closed = false) :
    0 < s.answersLeft.length := by
  cases here : s.cursor.batch with
  | nil =>
    rw [answersLeft_of_due live (h.short live) here]
    exact Nat.one_pos
  | cons a rest =>
    rw [answersLeft_taken (h.short live) here]
    exact Nat.succ_pos _

/-! ## Rounds -/

namespace Leaving

theorem cancel (h : Leaving s) : Leaving s.cancel :=
  h.toSteady.leaving

theorem close (s : Session shape) : Leaving s.close :=
  .of_closed rfl (channel_close s)

theorem item {rest : List shape.Carrier} (h : Leaving s)
    (more : (s.taken rest).cursor.limitReached = false) : Leaving (s.taken rest) :=
  ⟨⟨h.held, h.known, fun _ => more, h.released⟩, h.cancelled⟩

/-- One use of `next` after the caller has cancelled gives the first of the answers that are left. -/
theorem round (h : Leaving s) (round : Round s acts o s') :
    Leaving s' ∧ o = s.answersLeft.headD none ∧ s'.answersLeft = s.answersLeft.tail := by
  cases round with
  | limit reached =>
    rw [answersLeft_of_reached reached, answersLeft_of_used_up rfl rfl]
    exact ⟨close s, rfl, rfl⟩
  | last short here reached =>
    rw [answersLeft_taken short here, answersLeft_of_reached reached, answersLeft_of_used_up rfl rfl]
    exact ⟨close _, rfl, rfl⟩
  | item short here more =>
    rw [answersLeft_taken short here]
    exact ⟨h.item more, rfl, rfl⟩
  | ended short empty closed =>
    rw [answersLeft_of_used_up closed empty]
    exact ⟨h, rfl, rfl⟩
  | failed short empty live failed =>
    rw [Cursor.fetch_of_cancelled (h.cancelled live)] at failed
    cases failed
    have nothing : (s.fail .cancelled s.talk).answersLeft = [] := answersLeft_of_used_up rfl empty
    rw [answersLeft_of_due live short empty, nothing]
    exact ⟨.of_closed rfl (Conversation.channel_release _), rfl, rfl⟩
  | fetched short empty live fetched rest =>
    rw [Cursor.fetch_of_cancelled (h.cancelled live)] at fetched
    cases fetched

end Leaving

/-! ## What is given -/

/-- Padding a list one element at a time. -/
theorem headD_cons_rightpad {α : Type} (as : List α) (n m : Nat) (a : α) :
    as.headD a :: (as.tail.take n).rightpad m a = (as.take (n + 1)).rightpad (m + 1) a := by
  cases as with
  | nil => simp [List.rightpad, List.replicate_succ]
  | cons b bs => simp [List.rightpad]

/-- The answers that are left come one after another up to the first close, and all else is nothing. -/
theorem Leaving.outputs {calls : List Call} {os : List (Output shape)} (h : Leaving s)
    (run : Run s calls acts os s') :
    os = (s.answersLeft.take (Call.asks calls)).rightpad (calls.count .next) none := by
  induction run with
  | done => rfl
  | next round rest ih =>
    obtain ⟨leaving, rfl, left⟩ := h.round round
    rw [ih leaving, left, Call.asks_next, List.count_cons_self]
    exact headD_cons_rightpad _ _ _ none
  | close rest ih =>
    rw [ih (close _), answersLeft_of_used_up rfl rfl, Call.asks_close]
    simp
  | cancel rest ih => exact ih h.cancel

/-! ## What becomes of the channel -/

/-- A cursor that has been closed does nothing that others see. -/
theorem of_run_closed {calls : List Call} {os : List (Output shape)} (run : Run s calls acts os s')
    (closed : s.cursor.closed = true) (released : s.talk.channel = none) :
    s'.talk.channel = none ∧ s'.talk.events = s.talk.events := by
  have shut {s : Session shape} (released : s.talk.channel = none) :
      s.close.talk.channel = none ∧ s.close.talk.events = s.talk.events :=
    ⟨channel_close s, congrArg Conversation.events (close_of_released released)⟩
  induction run with
  | done => exact ⟨released, rfl⟩
  | next round rest ih =>
    cases round with
    | limit reached =>
      obtain ⟨gone, same⟩ := shut released
      obtain ⟨still, same'⟩ := ih rfl gone
      exact ⟨still, same'.trans same⟩
    | last short here reached =>
      obtain ⟨gone, same⟩ := shut (s := Session.taken _ _) released
      obtain ⟨still, same'⟩ := ih rfl gone
      exact ⟨still, same'.trans same⟩
    | item short here more => exact ih closed released
    | ended short empty _ => exact ih closed released
    | failed short empty live failed => exact absurd (closed.symm.trans live) nofun
    | fetched short empty live fetched rest => exact absurd (closed.symm.trans live) nofun
  | close rest ih =>
    obtain ⟨gone, same⟩ := shut released
    obtain ⟨still, same'⟩ := ih rfl gone
    exact ⟨still, same'.trans same⟩
  | cancel rest ih => exact ih closed released

/-- The calls that come after a close of an open cursor do not change that it has been given up. -/
theorem told_of_close {calls : List Call} {os : List (Output shape)}
    (held : s.talk.channel.isSome) (known : s.cursor.id ≠ 0) (run : Run s.close calls acts os s') :
    ∃ id message, s'.talk.channel = none ∧ Request.encode (.kill ⟨id, [s.cursor.id]⟩) = .ok message ∧
      s'.talk.events = .release :: @Event.send .own message s.cursor.timeout :: s.talk.events := by
  obtain ⟨id, message, encoded, told⟩ := close_of_held held known
  obtain ⟨gone, same⟩ := of_run_closed run rfl (channel_close s)
  exact ⟨id, message, gone, encoded, same.trans told⟩

/-- A call other than a close leaves what becomes of the channel to the calls that follow, if it does nothing
that others see and leaves as many answers as are asked for less. -/
theorem Parting.cons {t : Session shape} {call : Call} {calls : List Call} (h : Parting t calls s')
    (other : call ≠ .close)
    (fewer : Call.asks (call :: calls) < s.answersLeft.length ↔
      Call.asks calls < t.answersLeft.length)
    (unmet : t.unmet = s.unmet) (closed : t.cursor.closed = s.cursor.closed)
    (id : t.cursor.id = s.cursor.id) (timeout : t.cursor.timeout = s.cursor.timeout)
    (events : t.talk.events = s.talk.events) : Parting s (call :: calls) s' := by
  have closes : .close ∈ call :: calls ↔ .close ∈ calls := by
    rw [List.mem_cons, or_iff_right other.symm]
  cases h with
  | already closed' released same =>
    exact .already (closed.symm.trans closed') released (same.trans events)
  | waiting live before unclosed held same =>
    exact .waiting (closed.symm.trans live) (fewer.mpr before) (mt closes.mp unclosed) held
      (same.trans events)
  | failed unmet' asked released told =>
    rw [events] at told
    refine .failed (unmet.symm.trans unmet') ?_ released told
    exact Nat.not_lt.mp (mt fewer.mp (Nat.not_lt.mpr asked))
  | killed live known first released encoded told =>
    rw [id] at known encoded
    rw [timeout, events] at told
    refine .killed (closed.symm.trans live) known ?_ released encoded told
    simp only [fewer, closes]
    rw [← unmet]
    exact first

/-- What becomes of the channel once the caller has cancelled. -/
theorem Leaving.parting {calls : List Call} {os : List (Output shape)} (h : Leaving s)
    (run : Run s calls acts os s') : Parting s calls s' := by
  induction run with
  | @done s =>
    cases live : s.cursor.closed with
    | true => exact .already live (h.released live) rfl
    | false => exact .waiting live (answersLeft_pos h.toSteady live) nofun (h.held live) rfl
  | @next s _ _ calls _ _ _ _ round rest ih =>
    cases live : s.cursor.closed with
    | true =>
      obtain ⟨gone, same⟩ := of_run_closed (.next round rest) live (h.released live)
      exact .already live gone same
    | false =>
      cases round with
      | limit reached => exact absurd ((h.short live).symm.trans reached) nofun
      | @last _ a items short here reached =>
        have left : s.answersLeft.length = 1 := by
          rw [answersLeft_taken short here, answersLeft_of_reached reached]
          rfl
        have met : s.unmet = false := by
          rw [← unmet_taken here]
          exact unmet_of_reached reached
        obtain ⟨id, message, gone, encoded, told⟩ :=
          told_of_close (s := s.taken items) (h.held live) (h.known live) rest
        refine .killed live (h.known live) ?_ gone encoded told
        rw [left, Call.asks_next, if_neg (by omega)]
        exact met
      | item short here more =>
        refine (ih (h.item more)).cons nofun ?_ (unmet_taken here) rfl rfl rfl rfl
        rw [answersLeft_taken short here, Call.asks_next]
        exact Nat.succ_lt_succ_iff
      | ended short empty closed => exact absurd (closed.symm.trans live) nofun
      | failed short empty live failed =>
        rw [Cursor.fetch_of_cancelled (h.cancelled live)] at failed
        cases failed
        have held : s.talk.channel.isSome := h.held live
        obtain ⟨gone, same⟩ := of_run_closed rest rfl (Conversation.channel_release _)
        refine .failed (unmet_of_due live short empty) ?_ gone
          (same.trans (Conversation.events_release_of_held held))
        rw [answersLeft_of_due live short empty, Call.asks_next]
        exact Nat.succ_le_succ (Nat.zero_le _)
      | fetched short empty live fetched rest =>
        rw [Cursor.fetch_of_cancelled (h.cancelled live)] at fetched
        cases fetched
  | @close s _ calls _ _ rest ih =>
    cases live : s.cursor.closed with
    | true =>
      obtain ⟨gone, same⟩ := of_run_closed (.close rest) live (h.released live)
      exact .already live gone same
    | false =>
      obtain ⟨id, message, gone, encoded, told⟩ := told_of_close (h.held live) (h.known live) rest
      refine .killed live (h.known live) ?_ gone encoded told
      rw [Call.asks_close, if_pos (answersLeft_pos h.toSteady live)]
      exact List.mem_cons_self
  | cancel rest ih => exact (ih h.cancel).cons nofun Iff.rfl rfl rfl rfl rfl rfl

/-! ## After the caller has cancelled -/

/-- Whatever becomes of the channel, nothing more is asked for. -/
theorem Parting.unasked {calls : List Call} (h : Parting s calls s') :
    ∃ more, s'.talk.events = more ++ s.talk.events ∧ ∀ e ∈ more, ¬ e.IsMore := by
  cases h with
  | already closed released same => exact ⟨[], same, nofun⟩
  | waiting live before unclosed held same => exact ⟨[], same, nofun⟩
  | failed unmet asked released told =>
    refine ⟨[.release], told, fun e mem => ?_⟩
    rw [List.mem_singleton.mp mem]
    exact id
  | @killed id message live known first released encoded told =>
    -- the message tells that it is one that gives cursors up
    have other : ¬ (@Event.send .own message s.cursor.timeout).IsMore := by
      intro more
      have same := (Request.opcodeWord_encode encoded).symm.trans more
      exact absurd (Opcode.number_injective same) nofun
    refine ⟨[.release, @Event.send .own message s.cursor.timeout], told, fun e mem => ?_⟩
    rcases List.mem_cons.mp mem with rfl | mem
    · exact nofun
    · rw [List.mem_singleton.mp mem]
      exact other

theorem Leaving.unwinds {calls : List Call} {os : List (Output shape)} (h : Leaving s)
    (run : Run s calls acts os s') : Unwinds s calls os s' where
  outputs := h.outputs run
  unasked := (h.parting run).unasked
  parting := h.parting run
  token := Conversation.isCancelled_own

/-- A cursor that holds its channel as long as it is open may have been used in whatever way when its caller
cancels, and may be used in whatever way afterwards. -/
theorem Steady.unwinds (h : Steady s) (before later : List Call) :
    let t := (s.play before).2.cancel
    Unwinds t later (t.play later).1 (t.play later).2 := by
  intro t
  obtain ⟨acts, run⟩ := exists_run_play later t
  exact (h.play before).leaving.unwinds run

/-- What follows once the caller of a new cursor has cancelled, whatever was done before and is done
afterwards. The last is to drop the cursor, which closes it. -/
theorem unwinds_of_play (cursor : Cursor shape) (channel : Channel) (c : Conversation)
    (before later : List Call) :
    let s := (play before (start cursor channel c)).2.cancel
    Unwinds s later (play later s).1 (play later s).2 :=
  (steady_start cursor channel c).unwinds before later

end Session

/-- So it is for the cursor of a query. -/
theorem Query.unwinds_of_execute {q : Query shape} {selection : Selection} {c c' : Conversation}
    {cursor : Cursor shape} (h : q.execute selection c = .ok cursor c') (before later : List Call) :
    let s := (Session.play before ⟨cursor, c'⟩).2.cancel
    Session.Unwinds s later (s.play later).1 (s.play later).2 := by
  obtain ⟨plan, reply, values, channel, m, -, starts⟩ := Session.exists_start_of_execute h
  rw [← starts]
  exact (Session.steady_start _ channel m).unwinds before later

end DocumentClient
