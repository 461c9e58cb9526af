import DocumentClient.Proofs.Wire.Streaming

/-!
# What lies in front of a writer

A writer starts wherever the bytes end that it is given, never goes back in front of that place, and does
there what it would do with nothing in front.

* `Writer.behind w front`: the writer with bytes in front of all that it has written.
* `Write.Framed write`: the step does behind other bytes what it does without them.

Results:
1. `Write.framed_value`: values are written behind other bytes as they are without them; induction on the
   value, its fields and its items.
2. `Writer.Call.framed_runAll`: so it is for all that is asked of a writer.
-/

namespace DocumentClient

open Outcome

/-- The writer with bytes in front of all that it has written. -/
def Writer.behind (w : Writer) (front : ByteArray) : Writer :=
  { w with base := front ++ w.base }

theorem Writer.append_behind (w : Writer) (front bytes : ByteArray) :
    (w.behind front).append bytes = (w.append bytes).behind front := by
  obtain ⟨base, _ | ⟨⟨body, index⟩, outer⟩, phase, name⟩ := w
  · simp only [append, behind, ByteArray.append_assoc]
  · rfl

theorem Writer.behind_ofBytes (front : ByteArray) : Writer.behind {} front = .ofBytes front :=
  congrArg Writer.ofBytes ByteArray.append_empty

namespace Write

/-- The step does behind other bytes what it does without them. -/
def Framed (write : Write Unit) : Prop :=
  ∀ front, Simulates (·.behind front) write write

/-! ## Steps behind other bytes -/

variable {first rest : Write Unit}

/-- One step after the other. -/
theorem Framed.bind (hf : Framed first) (hr : Framed rest) : Framed (first >>= fun _ => rest) :=
  fun front => (hf front).bind fun _ => hr front

theorem framed_pure : Framed (pure ()) := fun _ => simulates_pure ()

theorem framed_throw (fault : Fault) : Framed (throw fault) := fun _ => simulates_throw fault

theorem framed_put (bytes : ByteArray) : Framed (put bytes) := fun front w =>
  congrArg (EStateM.Result.ok ()) (w.append_behind front bytes)

theorem framed_putPart (part : Except Fault ByteArray) : Framed (putPart part) := by
  cases part with
  | ok bytes => exact framed_put bytes
  | error fault => exact framed_throw fault

theorem framed_endValue : Framed endValue := fun _ _ => rfl

theorem framed_name (text : String) : Framed (name text) := by
  intro front w
  unfold name
  rw [get_bind, get_bind]
  exact simulates_guard rfl (simulates_guard rfl (simulates_guard rfl rfl))

/-- The name of a value comes from the writer's store or from the innermost container, never from the base. -/
theorem framed_beginValue (kind : Kind) : Framed (beginValue kind) := by
  rintro front ⟨base, containers, phase, name⟩
  cases phase with
  | value =>
    cases name with
    | none => rfl
    | some text => exact framed_put _ front ⟨base, containers, .value, none⟩
  | name => rcases containers with _ | ⟨⟨body, _ | index⟩, outer⟩ <;> rfl
  | initial | done => rfl

theorem framed_openContainer (index : Option Nat) : Framed (openContainer index) := by
  intro front w
  unfold openContainer
  rw [get_bind, get_bind]
  exact simulates_guard rfl rfl

/-- Only the outermost container goes to the base, and there it goes behind all that is in it. -/
theorem framed_closeContainer : Framed closeContainer := by
  rintro front ⟨base, _ | ⟨⟨body, index⟩, outer⟩, phase, name⟩
  · rfl
  · have left : Framed (modify fun w =>
        { w with phase := if outer.isEmpty then .done else .name }) := fun _ _ => rfl
    unfold closeContainer
    rw [get_bind, get_bind]
    dsimp only [Writer.behind]
    rw [set_bind, set_bind]
    cases lengthBytes (body.size + minDocumentSize) with
    | error fault => exact (framed_put _).bind (framed_throw fault) front ⟨base, outer, phase, name⟩
    | ok length => exact (framed_put _).bind left front ⟨base, outer, phase, name⟩

theorem framed_startDocument : Framed startDocument := by
  intro front w
  unfold startDocument
  rw [get_bind, get_bind]
  by_cases inner : w.phase ≠ .initial
  · rw [if_pos inner, if_pos (show (w.behind front).phase ≠ .initial from inner)]
    exact (framed_beginValue .document).bind (framed_openContainer none) front w
  · rw [if_neg inner, if_neg (show ¬ (w.behind front).phase ≠ .initial from inner)]
    exact framed_openContainer none front w

theorem framed_startArray : Framed startArray :=
  (framed_beginValue .array).bind (framed_openContainer (some 0))

theorem framed_endDocument : Framed endDocument := by
  intro front w
  unfold endDocument
  rw [get_bind, get_bind]
  exact simulates_guard rfl (framed_closeContainer front w)

theorem framed_endArray : Framed endArray := by
  intro front w
  unfold endArray
  rw [get_bind, get_bind]
  exact simulates_guard rfl (framed_closeContainer front w)

/-! ## Values behind other bytes -/

theorem framed_scalar (kind : Kind) (part : Except Fault ByteArray) : Framed (scalar kind part) :=
  (framed_beginValue kind).bind ((framed_putPart part).bind framed_endValue)

theorem framed_binary (data : Binary) : Framed (binary data) := by
  unfold binary
  refine (framed_beginValue .binary).bind ?_
  split
  · exact (framed_putPart _).bind ((framed_put _).bind ((framed_putPart _).bind
      ((framed_put data.bytes).bind framed_endValue)))
  · exact (framed_putPart _).bind ((framed_put _).bind ((framed_put data.bytes).bind framed_endValue))

theorem framed_regularExpression (pattern options : String) : Framed (regularExpression pattern options) :=
  (framed_beginValue .regularExpression).bind ((framed_putPart (zeroEndedBytes pattern)).bind
    ((framed_putPart (zeroEndedBytes options)).bind framed_endValue))

theorem framed_dbPointer (collection : String) (id : ObjectId) : Framed (dbPointer collection id) :=
  (framed_beginValue .dbPointer).bind ((framed_putPart (textBytes collection)).bind
    ((framed_put id.toBytes).bind framed_endValue))

/-- The writer of a scope starts with nothing in front anyway. -/
theorem framed_scopedCodeOf (code : String) (scope : Write Unit) : Framed (scopedCodeOf code scope) := by
  unfold scopedCodeOf
  refine (framed_beginValue .javaScriptWithScope).bind ?_
  split
  · exact (framed_put lengthPlaceholder).bind (framed_throw _)
  · split
    · exact (framed_put _).bind (framed_throw _)
    · split
      · exact (framed_put _).bind (framed_throw _)
      · exact (framed_put _).bind framed_endValue

theorem framed_documentOf {inner : Write Unit} (h : Framed inner) : Framed (documentOf inner) :=
  framed_startDocument.bind (h.bind framed_endDocument)

theorem framed_arrayOf {inner : Write Unit} (h : Framed inner) : Framed (arrayOf inner) :=
  framed_startArray.bind (h.bind framed_endArray)

mutual

/-- A value is written behind other bytes as it is without them. -/
theorem framed_value : (v : Value) → Framed (value v)
  | .document entries => framed_documentOf (framed_fields entries)
  | .array values => framed_arrayOf (framed_items values)
  | .binary data => framed_binary data
  | .regularExpression pattern options => framed_regularExpression pattern options
  | .dbPointer collection id => framed_dbPointer collection id
  | .javaScriptWithScope code scope => framed_scopedCodeOf code (documentOf (fields scope))
  | .double _ | .string _ | .undefined | .objectId _ | .boolean _ | .dateTime _ | .null
  | .javaScript _ | .symbol _ | .int32 _ | .timestamp _ | .int64 _ | .decimal128 _ | .minKey
  | .maxKey => framed_scalar _ _

theorem framed_fields : (entries : List (String × Value)) → Framed (fields entries)
  | [] => framed_pure
  | (text, v) :: rest => (framed_name text).bind ((framed_value v).bind (framed_fields rest))

theorem framed_items : (values : List Value) → Framed (items values)
  | [] => framed_pure
  | v :: rest => (framed_value v).bind (framed_items rest)

end

end Write

/-! ## Calls behind other bytes -/

namespace Writer.Call

theorem framed_run (call : Call) : Write.Framed call.run := by
  cases hv : call.value? with
  | some v =>
    rw [run_of_value? hv]
    exact Write.framed_value v
  | none =>
    cases call with
    | startDocument => exact Write.framed_startDocument
    | endDocument => exact Write.framed_endDocument
    | startArray => exact Write.framed_startArray
    | endArray => exact Write.framed_endArray
    | name text => exact Write.framed_name text
    | _ => cases hv

theorem framed_runAll (calls : List Call) : Write.Framed (runAll calls) := by
  induction calls with
  | nil => exact Write.framed_pure
  | cons call calls ih => exact (framed_run call).bind ih

end Writer.Call

end DocumentClient
