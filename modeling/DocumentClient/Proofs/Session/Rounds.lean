import DocumentClient.Proofs.Session.Steps

/-!
# Rounds and runs

`Session.next` hands out a result, a failure or nothing, and on the way it may fetch and close. A round
is one use of `next` with all that is done on the way; a run is any use that a caller makes of a cursor,
call after call. What a cursor does is named together with the session in which it does so, so that facts
about runs can tell when something was done and what came of it.

Results:
1. `Session.exists_round_iff`: a round says what `next` does. The deliveries to come last for all the
   requests that are answered, so the number of requests is never what ends it.
2. `Session.Round.unique`: there is one round from a session.
3. `Session.exists_run_play`: whatever is called, a run says what is done.
4. `Session.Invariant.run`: what every step keeps, a run keeps.
-/

namespace DocumentClient

/-- What a cursor does, and the session in which it does so. -/
inductive Act (shape : Shape) where
  /-- Asks for the next results. -/
  | fetch (s : Session shape)
  /-- Closes, on its own or because it is told to. -/
  | close (s : Session shape)

namespace Act

variable {shape : Shape}

/-- The reply that a fetch accepts, and the results in it. -/
def answered : Act shape → Option (Reply × List shape.Carrier)
  | fetch s =>
    match s.cursor.answer s.talk with
    | .ok p _ => some p
    | .error .. => none
  | close _ => none

/-- How a fetch fails. -/
def failure : Act shape → Option Failure
  | fetch s =>
    match s.cursor.fetch s.talk with
    | .ok .. => none
    | .error failure _ => some failure
  | close _ => none

/-- The identities of the cursor that the accepted replies name, in order. -/
def replyIds (acts : List (Act shape)) : List Int64 :=
  (acts.filterMap answered).map (·.1.cursorId)

/-- The results in the accepted replies, in order. -/
def arrived (acts : List (Act shape)) : List shape.Carrier :=
  (acts.filterMap answered).flatMap (·.2)

/-- The failures of the fetches, in order. -/
def failures (acts : List (Act shape)) : List Failure :=
  acts.filterMap failure

/-- The identity of the cursor by the latest accepted reply, after a first one. -/
def latestId (first : Int64) (acts : List (Act shape)) : Int64 :=
  (replyIds acts).getLastD first

theorem answered_fetch {s : Session shape} {p : Reply × List shape.Carrier} {c : Conversation}
    (h : s.cursor.answer s.talk = .ok p c) : (fetch s).answered = some p := by
  simp only [answered, h]

theorem failure_fetch {s : Session shape} {cursor : Cursor shape} {c : Conversation}
    (h : s.cursor.fetch s.talk = .ok cursor c) : (fetch s).failure = none := by
  simp only [failure, h]

theorem answered_fetch_of_error {s : Session shape} {failure : Failure} {c : Conversation}
    (h : s.cursor.fetch s.talk = .error failure c) : (fetch s).answered = none := by
  simp only [answered, Cursor.fetch_eq_error_iff.mp h]

theorem failure_fetch_of_error {s : Session shape} {failure : Failure} {c : Conversation}
    (h : s.cursor.fetch s.talk = .error failure c) : (fetch s).failure = some failure := by
  simp only [Act.failure, h]

theorem replyIds_append_of_none {act : Act shape} (h : act.answered = none)
    (acts : List (Act shape)) : replyIds (acts ++ [act]) = replyIds acts := by
  simp [replyIds, h]

theorem replyIds_append_of_some {act : Act shape} {p : Reply × List shape.Carrier}
    (h : act.answered = some p) (acts : List (Act shape)) :
    replyIds (acts ++ [act]) = replyIds acts ++ [p.1.cursorId] := by
  simp [replyIds, h]

theorem latestId_append_of_none {act : Act shape} (h : act.answered = none) (first : Int64)
    (acts : List (Act shape)) : latestId first (acts ++ [act]) = latestId first acts := by
  rw [latestId, replyIds_append_of_none h, latestId]

theorem latestId_append_of_some {act : Act shape} {p : Reply × List shape.Carrier}
    (h : act.answered = some p) (first : Int64) (acts : List (Act shape)) :
    latestId first (acts ++ [act]) = p.1.cursorId := by
  rw [latestId, replyIds_append_of_some h]
  simp

end Act

/-- What a caller does with a cursor. -/
inductive Call where
  | next
  | close
  /-- Cancels the operation. -/
  | cancel
deriving DecidableEq, Repr

namespace Session

variable {shape : Shape}

/-- What `next` gives. -/
abbrev Output (shape : Shape) := Option (Except Failure shape.Carrier)

/-- The session once the first of the results that have arrived is handed out. -/
def taken (s : Session shape) (rest : List shape.Carrier) : Session shape :=
  { s with
    cursor :=
      { s.cursor with
        batch := rest
        remaining := if 0 < s.cursor.limit then s.cursor.remaining - 1 else s.cursor.remaining
        totalReturned := s.cursor.totalReturned + 1 } }

theorem handOut_eq (s : Session shape) (rest : List shape.Carrier) :
    s.handOut rest =
      if (s.taken rest).cursor.limitReached then (s.taken rest).close else s.taken rest :=
  rfl

/-- The session of a caller who has cancelled. -/
def cancel (s : Session shape) : Session shape :=
  { s with talk := { s.talk with cancelled := true } }

/-! ## Rounds -/

/-- One use of `next`: what is done, what is given, and the session afterwards. -/
inductive Round : Session shape → List (Act shape) → Output shape → Session shape → Prop
  /-- The limit had been reached before. -/
  | limit {s} (reached : s.cursor.limitReached = true) : Round s [.close s] none s.close
  /-- The result that is handed out is the last that the limit allows. -/
  | last {s a rest} (short : s.cursor.limitReached = false) (here : s.cursor.batch = a :: rest)
      (reached : (s.taken rest).cursor.limitReached = true) :
      Round s [.close (s.taken rest)] (some (.ok a)) (s.taken rest).close
  | item {s a rest} (short : s.cursor.limitReached = false) (here : s.cursor.batch = a :: rest)
      (more : (s.taken rest).cursor.limitReached = false) :
      Round s [] (some (.ok a)) (s.taken rest)
  | ended {s} (short : s.cursor.limitReached = false) (empty : s.cursor.batch = [])
      (closed : s.cursor.closed = true) : Round s [] none s
  | failed {s failure c} (short : s.cursor.limitReached = false) (empty : s.cursor.batch = [])
      (live : s.cursor.closed = false) (h : s.cursor.fetch s.talk = .error failure c) :
      Round s [.fetch s] (some (.error failure)) (s.fail failure c)
  | fetched {s cursor c acts o s'} (short : s.cursor.limitReached = false)
      (empty : s.cursor.batch = []) (live : s.cursor.closed = false)
      (h : s.cursor.fetch s.talk = .ok cursor c) (rest : Round ⟨cursor, c⟩ acts o s') :
      Round s (.fetch s :: acts) o s'

/-- There is one round from a session. -/
theorem Round.unique {s t t' : Session shape} {acts acts' : List (Act shape)} {o o' : Output shape}
    (h : Round s acts o t) (h' : Round s acts' o' t') : acts = acts' ∧ o = o' ∧ t = t' := by
  induction h generalizing acts' o' t' with
  | limit reached => cases h' <;> simp_all
  | last short here reached => cases h' <;> simp_all
  | item short here more => cases h' <;> simp_all
  | ended short empty closed => cases h' <;> simp_all
  | failed short empty live h => cases h' <;> simp_all
  | fetched short empty live h rest ih =>
    cases h' with
    | fetched short' empty' live' h' rest' =>
      rw [h] at h'
      cases h'
      obtain ⟨rfl, rfl, rfl⟩ := ih rest'
      exact ⟨rfl, rfl, rfl⟩
    | _ => simp_all

/-- Fuel beyond the deliveries to come lasts: whoever is answered uses a delivery up. -/
theorem exists_round_nextWithin {fuel : Nat} {s : Session shape} (enough : s.talk.pending + 2 ≤ fuel) :
    ∃ acts, Round s acts (nextWithin fuel s).1 (nextWithin fuel s).2 := by
  induction fuel generalizing s with
  | zero => exact absurd enough (Nat.not_succ_le_zero _)
  | succ fuel ih =>
    unfold nextWithin
    cases short : s.cursor.limitReached with
    | true => exact ⟨_, .limit short⟩
    | false =>
      cases here : s.cursor.batch with
      | cons a rest =>
        show ∃ acts, Round s acts (some (.ok a)) (s.handOut rest)
        rw [handOut_eq]
        cases more : (s.taken rest).cursor.limitReached with
        | true => exact ⟨_, .last short here more⟩
        | false => exact ⟨_, .item short here more⟩
      | nil =>
        cases live : s.cursor.closed with
        | true => exact ⟨_, .ended short here live⟩
        | false =>
          cases h : s.cursor.fetch s.talk with
          | error failure c => exact ⟨_, .failed short here live h⟩
          | ok cursor c =>
            -- one delivery and one unit of fuel are gone
            have used : c.pending < s.talk.pending := Cursor.pending_of_fetch h
            have lasts : c.pending + 2 ≤ fuel :=
              Nat.le_of_lt_succ (Nat.lt_of_lt_of_le (Nat.add_lt_add_right used 2) enough)
            obtain ⟨acts, rest⟩ := ih (s := ⟨cursor, c⟩) lasts
            exact ⟨_, .fetched short here live h rest⟩

/-- A round says what `next` does. -/
theorem exists_round_iff {s s' : Session shape} {o : Output shape} :
    (∃ acts, Round s acts o s') ↔ s.next = (o, s') := by
  obtain ⟨acts, round⟩ := exists_round_nextWithin (Nat.le_refl (s.talk.pending + 2))
  constructor
  · rintro ⟨acts', round'⟩
    obtain ⟨-, rfl, rfl⟩ := round'.unique round
    rfl
  · intro h
    unfold next at h
    rw [h] at round
    exact ⟨acts, round⟩

/-! ## Runs -/

/-- The calls of a caller one after another: what `next` gives each time, and the session afterwards. -/
def play : List Call → Session shape → List (Output shape) × Session shape
  | [], s => ([], s)
  | .next :: calls, s =>
    let (o, s) := s.next
    let (os, s) := s.play calls
    (o :: os, s)
  | .close :: calls, s => s.close.play calls
  | .cancel :: calls, s => s.cancel.play calls

/-- The same together with all that is done. -/
inductive Run : Session shape → List Call → List (Act shape) → List (Output shape) →
    Session shape → Prop
  | done {s} : Run s [] [] [] s
  | next {s m s' calls acts more o os} (round : Round s acts o m) (rest : Run m calls more os s') :
      Run s (.next :: calls) (acts ++ more) (o :: os) s'
  | close {s s' calls acts os} (rest : Run s.close calls acts os s') :
      Run s (.close :: calls) (.close s :: acts) os s'
  | cancel {s s' calls acts os} (rest : Run s.cancel calls acts os s') :
      Run s (.cancel :: calls) acts os s'

/-- Whatever is called, something is done. -/
theorem exists_run_play (calls : List Call) (s : Session shape) :
    ∃ acts, Run s calls acts (s.play calls).1 (s.play calls).2 := by
  induction calls generalizing s with
  | nil => exact ⟨[], .done⟩
  | cons call calls ih =>
    cases call with
    | next =>
      obtain ⟨acts, round⟩ := exists_round_iff.mpr (rfl : s.next = (s.next.1, s.next.2))
      obtain ⟨more, rest⟩ := ih s.next.2
      exact ⟨_, .next round rest⟩
    | close =>
      obtain ⟨acts, rest⟩ := ih s.close
      exact ⟨_, .close rest⟩
    | cancel =>
      obtain ⟨acts, rest⟩ := ih s.cancel
      exact ⟨_, .cancel rest⟩

/-! ## Invariants -/

/-- What every step keeps, told by what has been done so far and the session that it led to. -/
structure Invariant (P : List (Act shape) → Session shape → Prop) : Prop where
  close {acts s} (h : P acts s) : P (acts ++ [.close s]) s.close
  cancel {acts s} (h : P acts s) : P acts s.cancel
  taken {acts s a rest} (h : P acts s) (short : s.cursor.limitReached = false)
    (here : s.cursor.batch = a :: rest) : P acts (s.taken rest)
  failed {acts s failure c} (h : P acts s) (short : s.cursor.limitReached = false)
    (empty : s.cursor.batch = []) (live : s.cursor.closed = false)
    (failed : s.cursor.fetch s.talk = .error failure c) : P (acts ++ [.fetch s]) (s.fail failure c)
  fetched {acts s cursor c} (h : P acts s) (short : s.cursor.limitReached = false)
    (empty : s.cursor.batch = []) (live : s.cursor.closed = false)
    (fetched : s.cursor.fetch s.talk = .ok cursor c) : P (acts ++ [.fetch s]) ⟨cursor, c⟩

namespace Invariant

variable {P : List (Act shape) → Session shape → Prop} {acts more : List (Act shape)}
  {s s' : Session shape}

theorem round {o : Output shape} (keeps : Invariant P) (h : P acts s) (round : Round s more o s') :
    P (acts ++ more) s' := by
  -- along the fetches of the round; what was done before grows with each
  induction round generalizing acts with
  | limit reached => exact keeps.close h
  | last short here reached => exact keeps.close (keeps.taken h short here)
  | item short here more =>
    rw [List.append_nil]
    exact keeps.taken h short here
  | ended short empty closed =>
    rw [List.append_nil]
    exact h
  | failed short empty live failed => exact keeps.failed h short empty live failed
  | fetched short empty live fetched rest ih =>
    rw [List.append_cons]
    exact ih (keeps.fetched h short empty live fetched)

/-- What every step keeps, a run keeps. -/
theorem run {calls : List Call} {os : List (Output shape)} (keeps : Invariant P) (h : P acts s)
    (run : Run s calls more os s') : P (acts ++ more) s' := by
  induction run generalizing acts with
  | done =>
    rw [List.append_nil]
    exact h
  | next round rest ih =>
    rw [← List.append_assoc]
    exact ih (keeps.round h round)
  | close rest ih =>
    rw [List.append_cons]
    exact ih (keeps.close h)
  | cancel rest ih => exact ih (keeps.cancel h)

end Invariant

end Session

end DocumentClient
