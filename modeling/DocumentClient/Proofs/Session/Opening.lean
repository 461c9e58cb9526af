import DocumentClient.Proofs.Session.Steps

/-!
# How a query opens a cursor

A query that is run ends in one of four ways: it cannot be run, no server is found, the first request
fails, or the first reply opens a cursor. A cursor of which the server has no more results is closed from
the start.

Results:
1. `Query.execute_eq_ok_iff`: what a cursor is opened with.
2. `Query.of_execute_eq_error`: where a failure comes from, and that the channel has gone back by then.
-/

namespace DocumentClient

open Outcome

/-! ## Finding a server -/

namespace Talk

variable {selection : Selection} {mode : ReadMode} {timeout : Option UInt64} {c m : Conversation}

theorem of_select_eq_ok {u : Unit} (h : select selection mode timeout c = .ok u m) :
    m.channel = some selection.channel ∧ m.events = .select mode timeout :: c.events := by
  obtain ⟨⟨⟩, m₁, proceeds, h⟩ := bind_eq_ok_iff.mp h
  obtain ⟨-, rfl⟩ := proceed_eq_ok_iff.mp proceeds
  obtain ⟨⟨⟩, m₂, recorded, h⟩ := bind_eq_ok_iff.mp h
  obtain rfl := modify_eq_ok_iff.mp recorded
  cases found : selection.failure with
  | some failure =>
    rw [found] at h
    cases h
  | none =>
    rw [found] at h
    cases h
    exact ⟨rfl, rfl⟩

theorem held_of_select {u : Unit} (h : select selection mode timeout c = .ok u m) :
    m.channel.isSome := by
  rw [(of_select_eq_ok h).1]
  rfl

theorem of_select_eq_error {failure : Failure}
    (h : select selection mode timeout c = .error failure m) :
    m.channel = c.channel ∧ (∃ more, m.events = more ++ c.events ∧ ∀ e ∈ more, e = .select mode timeout) ∧
      (failure = .cancelled ∨ selection.failure = some failure) := by
  rcases bind_eq_error_iff.mp h with h | ⟨⟨⟩, m₁, proceeds, h⟩
  · obtain ⟨-, rfl, rfl⟩ := proceed_eq_error_iff.mp h
    exact ⟨rfl, ⟨[], rfl, nofun⟩, .inl rfl⟩
  · obtain ⟨-, rfl⟩ := proceed_eq_ok_iff.mp proceeds
    rcases bind_eq_error_iff.mp h with h | ⟨⟨⟩, m₂, recorded, h⟩
    · cases h
    · obtain rfl := modify_eq_ok_iff.mp recorded
      cases found : selection.failure with
      | some reported =>
        rw [found] at h
        cases h
        refine ⟨rfl, ⟨[_], rfl, fun e mem => List.mem_singleton.mp mem⟩, .inr rfl⟩
      | none =>
        rw [found] at h
        cases h

end Talk

/-! ## Running a query -/

namespace Plan

variable {shape : Shape} {plan : Plan shape} {server : Server} {c c' : Conversation}

/-- The cursor that the first reply opens. -/
def opened (plan : Plan shape) (reply : Reply) (values : List shape.Carrier) : Cursor shape :=
  { plan.cursor reply.cursorId values with closed := reply.cursorId = 0 }

/-- The conversation that a cursor starts with: the channel goes back if the server has no more
results. -/
def started (reply : Reply) (c : Conversation) : Conversation :=
  if reply.cursorId = 0 then c.release else c

/-- What is done once a server is found. -/
def begin (plan : Plan shape) (server : Server) : Talk (Cursor shape) := fun c =>
  match plan.firstBatch server c with
  | .ok cursor c =>
    if cursor.id = 0 then .ok { cursor with closed := true } c.release else .ok cursor c
  | .error failure c =>
    .error failure (c.notify (.queryFailed plan.collection server failure)).release

/-- Asking twice whether the caller has cancelled is asking once. -/
theorem execute_eq (plan : Plan shape) (selection : Selection) :
    plan.execute selection =
      Talk.select selection plan.preference.mode plan.timeout >>= fun _ =>
        plan.begin selection.channel.server := by
  funext c
  cases h : c.cancelled with
  | true =>
    -- the first question ends it, as the one of the selection would have done
    have stopped : Talk.proceed c = .error .cancelled c :=
      Talk.proceed_eq_error_iff.mpr ⟨h, rfl, rfl⟩
    have once : plan.execute selection c = .error .cancelled c :=
      bind_eq_error_iff.mpr (.inl stopped)
    rw [once]
    exact (bind_eq_error_iff.mpr (.inl (bind_eq_error_iff.mpr (.inl stopped)))).symm
  | false =>
    have proceeds : Talk.proceed c = .ok () c := Talk.proceed_eq_ok_iff.mpr ⟨h, rfl⟩
    unfold execute
    rw [bind_of_ok proceeds]
    rfl

theorem begin_eq_ok_iff {cursor : Cursor shape} :
    plan.begin server c = .ok cursor c' ↔ ∃ reply values m,
      plan.firstAnswer server c = .ok (reply, values) m ∧
        plan.opened reply values = cursor ∧ started reply m = c' := by
  have opening (reply : Reply) (values : List shape.Carrier) (m : Conversation)
      (answered : plan.firstAnswer server c = .ok (reply, values) m) :
      plan.begin server c = .ok (plan.opened reply values) (started reply m) := by
    have first : plan.firstBatch server c = .ok (plan.cursor reply.cursorId values) m :=
      firstBatch_eq_ok_iff.mpr ⟨reply, values, answered, rfl⟩
    unfold begin
    rw [first]
    by_cases last : reply.cursorId = 0
    · refine (if_pos last).trans ?_
      simp only [opened, started, last, decide_true, if_true]
    · refine (if_neg last).trans ?_
      simp only [opened, started, last, decide_false, if_false]
      rfl
  constructor
  · intro h
    cases answered : plan.firstAnswer server c with
    | ok p m =>
      rw [opening p.1 p.2 m answered] at h
      cases h
      exact ⟨p.1, p.2, m, rfl, rfl, rfl⟩
    | error failure m =>
      unfold begin at h
      rw [firstBatch_eq_error_iff.mpr answered] at h
      cases h
  · rintro ⟨reply, values, m, answered, rfl, rfl⟩
    exact opening reply values m answered

theorem begin_eq_error_iff {failure : Failure} :
    plan.begin server c = .error failure c' ↔ ∃ m,
      plan.firstAnswer server c = .error failure m ∧
        (m.notify (.queryFailed plan.collection server failure)).release = c' := by
  cases answered : plan.firstAnswer server c with
  | ok p m =>
    have opens := begin_eq_ok_iff.mpr ⟨p.1, p.2, m, answered, rfl, rfl⟩
    rw [opens]
    simp
  | error failure' m =>
    unfold begin
    rw [firstBatch_eq_error_iff.mpr answered]
    constructor
    · intro h
      cases h
      exact ⟨m, rfl, rfl⟩
    · rintro ⟨m', h, rfl⟩
      cases h
      rfl

end Plan

namespace Query

variable {shape : Shape} {q : Query shape} {selection : Selection} {c c' : Conversation}

theorem failsInMessage_resultCodec (q : Query shape) : FailsInMessage q.resultCodec := by
  unfold resultCodec
  split
  · exact .ok _
  · split
    · exact .ok _
    · exact .error trivial

theorem failsInMessage_required {α : Type} (name : String) (part : Option α) :
    FailsInMessage (required name part) := by
  unfold required
  split
  · exact .ok _
  · exact .error trivial

/-- A query that cannot be run is at fault itself. -/
theorem failsInMessage_validate (q : Query shape) : FailsInMessage q.validate := by
  unfold validate
  dsimp only
  split
  · split
    · refine .bind (failsInMessage_required _ _) fun collection => ?_
      refine .bind (failsInMessage_required _ _) fun filter => ?_
      exact .bind q.failsInMessage_resultCodec fun found => .ok _
    · exact .error trivial
  · exact .error trivial

/-- A query that is run opens a cursor iff it can be run, a server is found and the first request is
answered. -/
theorem execute_eq_ok_iff {cursor : Cursor shape} :
    q.execute selection c = .ok cursor c' ↔ ∃ plan m reply values m',
      q.validate = .ok plan ∧
        Talk.select selection plan.preference.mode plan.timeout c = .ok () m ∧
          plan.firstAnswer selection.channel.server m = .ok (reply, values) m' ∧
            plan.opened reply values = cursor ∧ Plan.started reply m' = c' := by
  unfold execute
  constructor
  · intro h
    obtain ⟨plan, m₀, checked, h⟩ := bind_eq_ok_iff.mp h
    obtain ⟨valid, rfl⟩ := Talk.ofExcept_eq_ok_iff.mp checked
    rw [plan.execute_eq] at h
    obtain ⟨⟨⟩, m, selected, h⟩ := bind_eq_ok_iff.mp h
    obtain ⟨reply, values, m', answered, rfl, rfl⟩ := Plan.begin_eq_ok_iff.mp h
    exact ⟨plan, m, reply, values, m', valid, selected, answered, rfl, rfl⟩
  · rintro ⟨plan, m, reply, values, m', valid, selected, answered, rfl, rfl⟩
    rw [bind_of_ok (Talk.ofExcept_eq_ok_iff.mpr ⟨valid, rfl⟩), plan.execute_eq,
      bind_of_ok selected]
    exact Plan.begin_eq_ok_iff.mpr ⟨reply, values, m', answered, rfl, rfl⟩

/-- A query that fails cannot be run, or finds no server, or its first request fails; then the channel
goes back. -/
theorem of_execute_eq_error {failure : Failure} (h : q.execute selection c = .error failure c') :
    (q.validate = .error failure ∧ c = c') ∨ ∃ plan, q.validate = .ok plan ∧
      (Talk.select selection plan.preference.mode plan.timeout c = .error failure c' ∨
        ∃ m m', Talk.select selection plan.preference.mode plan.timeout c = .ok () m ∧
          plan.firstAnswer selection.channel.server m = .error failure m' ∧
            (m'.notify (.queryFailed plan.collection selection.channel.server failure)).release =
              c') := by
  rcases bind_eq_error_iff.mp h with invalid | ⟨plan, m₀, checked, h⟩
  · exact .inl (Talk.ofExcept_eq_error_iff.mp invalid)
  · obtain ⟨valid, rfl⟩ := Talk.ofExcept_eq_ok_iff.mp checked
    rw [plan.execute_eq] at h
    rcases bind_eq_error_iff.mp h with nowhere | ⟨⟨⟩, m, selected, h⟩
    · exact .inr ⟨plan, valid, .inl nowhere⟩
    · obtain ⟨m', failed, rfl⟩ := Plan.begin_eq_error_iff.mp h
      exact .inr ⟨plan, valid, .inr ⟨m, m', selected, failed, rfl⟩⟩

end Query

end DocumentClient
