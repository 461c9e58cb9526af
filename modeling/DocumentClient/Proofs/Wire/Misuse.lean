import DocumentClient.Proofs.Wire.Acceptance
import DocumentClient.Proofs.Wire.Recovery

/-!
# Calls that a writer refuses

A writer refuses a call that has no meaning where it stands, and that is a misuse. A value is written in many
steps, each of which could be refused; but if the first of them is not, the others are not either, so nothing
of a value is written when its call is refused.

That holds of the values themselves once they have begun. How they may begin depends on the writer, which
after failures stands in places where no accepted calls lead: before a value without a name, inside of a
container that a failed value has left open, or outside of every container because the outermost one was
too large. What is left to trust in all of them is `Tidy`.

* `Writer.Tidy w`: a name is in store only before the value of a field.
* `Write.Leads before write behind`: from writers with one property the step comes to writers with another,
  and however it fails the writer is tidy.
* `Write.FailsCleanly write w`: the step fails for what is written, or leaves the writer as it was.

Results:
1. `Write.leads_value`: a value leads from tidy writers to tidy writers; induction on the value, its fields and
   its items.
2. `Writer.Tidy.attempt`, `Writer.Tidy.attemptAll`: a writer is tidy behind any calls.
3. `Write.failsCleanly_value`: a value fails cleanly wherever it is written; past the first step its faults are
   those of `Value.Blames`.
4. `Writer.eq_of_run_misuse`: a call that is refused leaves the writer as it was.
-/

namespace DocumentClient

open Outcome Grammar

namespace Writer

/-- A name is in store only before the value of a field: so it is behind any calls. -/
structure Tidy (w : Writer) : Prop where
  unnamed : w.phase ≠ .value → w.pendingName = none
  field : w.phase = .value → w.inArray = false

/-- The writer is tidy and has no name in store. -/
structure Blank (w : Writer) : Prop where
  spent : w.pendingName = none
  field : w.phase = .value → w.inArray = false

variable {w w' : Writer}

theorem Blank.tidy (h : w.Blank) : w.Tidy :=
  ⟨fun _ => h.spent, h.field⟩

theorem Tidy.blank (h : w.Tidy) (phase : w.phase ≠ .value) : w.Blank :=
  ⟨h.unnamed phase, fun value => absurd value phase⟩

theorem Blank.append (h : w.Blank) (bytes : ByteArray) : (w.append bytes).Blank := by
  obtain ⟨base, _ | ⟨⟨body, index⟩, outer⟩, phase, name⟩ := w
  · exact ⟨h.spent, h.field⟩
  · exact ⟨h.spent, h.field⟩

theorem tidy_ofBytes (base : ByteArray) : (ofBytes base).Tidy :=
  ⟨fun _ => rfl, fun _ => rfl⟩

end Writer

open Writer

/-! ## Where a step leads -/

namespace Write

variable {w w' : Writer} {first rest write : Write Unit} {before between behind : Writer → Prop}
  {kind : Kind} {fault : Fault}

/-- From writers with the first property the step comes to writers with the second; if it fails, it leaves a
tidy one. -/
structure Leads (before : Writer → Prop) (write : Write Unit) (behind : Writer → Prop) : Prop where
  succeeds : ∀ {w w'}, before w → write w = .ok () w' → behind w'
  fails : ∀ {w fault w'}, before w → write w = .error fault w' → w'.Tidy

/-- One step after the other. -/
theorem Leads.bind (hf : Leads before first between) (hr : Leads between rest behind) :
    Leads before (first >>= fun _ => rest) behind := by
  constructor
  · intro w w' start h
    obtain ⟨⟨⟩, m, ok, h⟩ := bind_eq_ok_iff.mp h
    exact hr.succeeds (hf.succeeds start ok) h
  · intro w fault w' start h
    rcases bind_eq_error_iff.mp h with h | ⟨⟨⟩, m, ok, h⟩
    · exact hf.fails start h
    · exact hr.fails (hf.succeeds start ok) h

theorem Leads.mono {start stop : Writer → Prop} (h : Leads before write behind)
    (weaker : ∀ {w}, start w → before w) (stronger : ∀ {w}, behind w → stop w) :
    Leads start write stop :=
  ⟨fun s ok => stronger (h.succeeds (weaker s) ok), fun s fails => h.fails (weaker s) fails⟩

theorem leads_pure : Leads before (pure ()) before := by
  refine ⟨fun start h => ?_, fun _ h => nomatch h⟩
  cases h
  exact start

theorem leads_throw (fault : Fault) : Leads Blank (throw fault) behind := by
  constructor
  · intro w w' _ h
    cases h
  · intro w _ w' start h
    cases h
    exact start.tidy

theorem leads_put (bytes : ByteArray) : Leads Blank (put bytes) Blank := by
  refine ⟨fun start h => ?_, fun _ h => nomatch h⟩
  cases h
  exact start.append bytes

theorem leads_putPart (part : Except Fault ByteArray) : Leads Blank (putPart part) Blank := by
  cases part with
  | ok bytes => exact leads_put bytes
  | error fault => exact leads_throw fault

theorem leads_endValue : Leads Blank endValue Blank := by
  refine ⟨fun start h => ?_, fun _ h => nomatch h⟩
  cases h
  exact ⟨start.spent, nofun⟩

/-- The name of a value is used up as soon as the value has begun. -/
theorem leads_beginValue (kind : Kind) : Leads Tidy (beginValue kind) Blank := by
  refine ⟨fun {w w'} start h => ?_, fun start h => of_beginValue_eq_error h ▸ start⟩
  obtain ⟨base, containers, phase, name⟩ := w
  cases phase with
  | value =>
    cases name with
    | none => cases h
    | some text =>
      cases h
      exact Blank.append (w := ⟨base, containers, .value, none⟩) ⟨rfl, start.field⟩ _
  | name =>
    rcases containers with _ | ⟨⟨body, _ | index⟩, outer⟩
    · cases h
    · cases h
    · cases h
      exact ⟨start.unnamed nofun, nofun⟩
  | initial | done => cases h

theorem leads_name (text : String) : Leads Tidy (name text) Tidy := by
  refine ⟨fun {w w'} start h => ?_, fun start h => of_name_eq_error h ▸ start⟩
  unfold name at h
  rw [get_bind] at h
  simp only [guard_eq_ok_iff, set_eq_ok_iff] at h
  obtain ⟨-, inDocument, -, rfl⟩ := h
  exact ⟨fun late => absurd rfl late, fun _ => Bool.eq_false_iff.mpr inDocument⟩

theorem leads_openContainer (index : Option Nat) : Leads Blank (openContainer index) Blank := by
  constructor
  · intro w w' start h
    obtain ⟨-, rfl⟩ := openContainer_eq_ok_iff.mp h
    exact ⟨start.spent, nofun⟩
  · intro w fault w' start h
    obtain ⟨-, -, rfl⟩ := openContainer_eq_error_iff.mp h
    exact start.tidy

theorem leads_startDocument : Leads Tidy startDocument Blank := by
  have inner := (leads_beginValue .document).bind (leads_openContainer none)
  have whole {w : Writer} (start : w.Tidy) (phase : ¬ w.phase ≠ .initial) : w.Blank := by
    refine start.blank ?_
    rw [not_not.mp phase]
    decide
  unfold startDocument
  constructor
  · intro w w' start h
    rw [get_bind] at h
    split at h
    · exact inner.succeeds start h
    · next phase => exact (leads_openContainer none).succeeds (whole start phase) h
  · intro w fault w' start h
    rw [get_bind] at h
    split at h
    · exact inner.fails start h
    · next phase => exact (leads_openContainer none).fails (whole start phase) h

theorem leads_startArray : Leads Tidy startArray Blank :=
  (leads_beginValue .array).bind (leads_openContainer (some 0))

/-- Whether the container can be left or is too large, no name comes up. -/
theorem leads_closeContainer :
    Leads (fun w => w.phase = .name ∧ w.pendingName = none) closeContainer Blank := by
  constructor
  · rintro ⟨base, _ | ⟨⟨body, index⟩, outer⟩, _, _⟩ w' ⟨⟨⟩, ⟨⟩⟩ h
    · cases h
    · obtain ⟨-, rfl⟩ := closeContainer_eq_ok_iff.mp h
      have spent := (Blank.append (w := ⟨base, outer, .name, none⟩) ⟨rfl, nofun⟩ (List.toByteArray
        (Bytes.digits 4 (body.size + minDocumentSize) ++ body.data.toList ++ [0]))).spent
      refine ⟨spent, fun phase => absurd phase ?_⟩
      cases outer <;> exact nofun
  · rintro ⟨base, _ | ⟨⟨body, index⟩, outer⟩, _, _⟩ fault w' ⟨⟨⟩, ⟨⟩⟩ h
    · cases h
      exact ⟨fun _ => rfl, nofun⟩
    · unfold closeContainer at h
      rw [get_bind] at h
      dsimp only at h
      rw [set_bind] at h
      cases size : lengthBytes (body.size + minDocumentSize) with
      | error large =>
        rw [size] at h
        cases h
        exact (Blank.append (w := ⟨base, outer, .name, none⟩) ⟨rfl, nofun⟩ _).tidy
      | ok length =>
        rw [size] at h
        cases h

/-- A container is left before an element only. -/
theorem leads_end {refused : Writer → Prop} [DecidablePred refused] {cause : Writer → Fault}
    (phase : ∀ w, ¬ refused w → w.phase = .name) :
    Leads Tidy
      (do
        let w ← get
        if refused w then throw (cause w)
        closeContainer)
      Blank := by
  have place {w : Writer} (start : w.Tidy) (fine : ¬ refused w) : w.phase = .name ∧ w.pendingName = none := by
    refine ⟨phase w fine, start.unnamed ?_⟩
    rw [phase w fine]
    decide
  constructor
  · intro w w' start h
    rw [get_bind] at h
    obtain ⟨fine, h⟩ := guard_eq_ok_iff.mp h
    exact leads_closeContainer.succeeds (place start fine) h
  · intro w fault w' start h
    rw [get_bind] at h
    rcases guard_eq_error_iff.mp h with ⟨-, -, rfl⟩ | ⟨fine, h⟩
    · exact start
    · exact leads_closeContainer.fails (place start fine) h

theorem leads_endDocument : Leads Tidy endDocument Blank :=
  leads_end fun _ fine => not_not.mp (not_or.mp fine).1

theorem leads_endArray : Leads Tidy endArray Blank :=
  leads_end fun _ fine => not_not.mp (not_or.mp fine).1

/-! ## Where values lead -/

theorem leads_scalar (kind : Kind) (part : Except Fault ByteArray) : Leads Tidy (scalar kind part) Blank :=
  (leads_beginValue kind).bind ((leads_putPart part).bind leads_endValue)

theorem leads_binary (data : Binary) : Leads Tidy (binary data) Blank := by
  unfold binary
  refine (leads_beginValue .binary).bind ?_
  split
  · exact (leads_putPart _).bind ((leads_put _).bind ((leads_putPart _).bind
      ((leads_put data.bytes).bind leads_endValue)))
  · exact (leads_putPart _).bind ((leads_put _).bind ((leads_put data.bytes).bind leads_endValue))

theorem leads_regularExpression (pattern options : String) :
    Leads Tidy (regularExpression pattern options) Blank :=
  (leads_beginValue .regularExpression).bind ((leads_putPart (zeroEndedBytes pattern)).bind
    ((leads_putPart (zeroEndedBytes options)).bind leads_endValue))

theorem leads_dbPointer (collection : String) (id : ObjectId) : Leads Tidy (dbPointer collection id) Blank :=
  (leads_beginValue .dbPointer).bind ((leads_putPart (textBytes collection)).bind
    ((leads_put id.toBytes).bind leads_endValue))

/-- The writer of a scope is another one, so it does not matter where it comes to. -/
theorem leads_scopedCodeOf (code : String) (scope : Write Unit) :
    Leads Tidy (scopedCodeOf code scope) Blank := by
  unfold scopedCodeOf
  refine (leads_beginValue .javaScriptWithScope).bind ?_
  split
  · exact (leads_put lengthPlaceholder).bind (leads_throw _)
  · split
    · exact (leads_put _).bind (leads_throw _)
    · split
      · exact (leads_put _).bind (leads_throw _)
      · exact (leads_put _).bind leads_endValue

theorem leads_documentOf {inner : Write Unit} (h : Leads Blank inner Blank) :
    Leads Tidy (documentOf inner) Blank :=
  leads_startDocument.bind (h.bind (leads_endDocument.mono Blank.tidy id))

theorem leads_arrayOf {inner : Write Unit} (h : Leads Blank inner Blank) :
    Leads Tidy (arrayOf inner) Blank :=
  leads_startArray.bind (h.bind (leads_endArray.mono Blank.tidy id))

mutual

/-- A value leaves a tidy writer, and one without a name in store if it succeeds. -/
theorem leads_value : (v : Value) → Leads Tidy (value v) Blank
  | .document entries => leads_documentOf (leads_fields entries)
  | .array values => leads_arrayOf (leads_items values)
  | .binary data => leads_binary data
  | .regularExpression pattern options => leads_regularExpression pattern options
  | .dbPointer collection id => leads_dbPointer collection id
  | .javaScriptWithScope code scope => leads_scopedCodeOf code (documentOf (fields scope))
  | .double _ | .string _ | .undefined | .objectId _ | .boolean _ | .dateTime _ | .null
  | .javaScript _ | .symbol _ | .int32 _ | .timestamp _ | .int64 _ | .decimal128 _ | .minKey
  | .maxKey => leads_scalar _ _

theorem leads_fields : (entries : List (String × Value)) → Leads Blank (fields entries) Blank
  | [] => leads_pure
  | (text, v) :: rest =>
    ((leads_name text).mono Blank.tidy id).bind ((leads_value v).bind (leads_fields rest))

theorem leads_items : (values : List Value) → Leads Blank (items values) Blank
  | [] => leads_pure
  | v :: rest => ((leads_value v).mono Blank.tidy id).bind (leads_items rest)

end

end Write

/-! ## Any calls -/

namespace Writer

variable {call : Call} {calls : List Call} {w w' : Writer}

theorem Call.leads (call : Call) : Write.Leads Tidy call.run Tidy := by
  cases hv : call.value? with
  | some v =>
    rw [run_of_value? hv]
    exact (Write.leads_value v).mono id Blank.tidy
  | none =>
    cases call with
    | startDocument => exact Write.leads_startDocument.mono id Blank.tidy
    | startArray => exact Write.leads_startArray.mono id Blank.tidy
    | endDocument => exact Write.leads_endDocument.mono id Blank.tidy
    | endArray => exact Write.leads_endArray.mono id Blank.tidy
    | name text => exact Write.leads_name text
    | _ => cases hv

/-- A call keeps the writer tidy, whether it is accepted or not. -/
theorem Tidy.attempt (h : w.Tidy) (call : Call) : (call.attempt w).Tidy := by
  unfold Call.attempt
  cases run : call.run w with
  | ok u m =>
    rw [left_of_ok run]
    exact call.leads.succeeds h run
  | error fault m =>
    rw [left_of_error run]
    exact call.leads.fails h run

/-- Calls one after another keep the writer tidy. -/
theorem Tidy.attemptAll (h : w.Tidy) (calls : List Call) : (Call.attemptAll calls w).Tidy := by
  induction calls generalizing w with
  | nil => exact h
  | cons call calls ih => exact ih (h.attempt call)

end Writer

/-! ## What a value fails for -/

theorem Value.Blames.isFormat {v : Value} {depth : Nat} {fault : Fault} (h : v.Blames depth fault) :
    fault.isFormat = true := by
  cases h <;> rfl

namespace Write

variable {w w' : Writer} {first rest write : Write Unit} {kind : Kind} {fault : Fault}

/-- The step fails for what is written, or it is refused and leaves the writer as it was. -/
def FailsCleanly (write : Write Unit) (w : Writer) : Prop :=
  ∀ fault w', write w = .error fault w' → fault.isFormat = true ∨ w' = w

/-- Whatever fault comes up lies in what is written. -/
abbrev FailsForContent (write : Write Unit) : Prop :=
  FailsFor write fun fault => fault.isFormat = true

theorem failsForContent_text (text : String) : FailsForContent (putPart (textBytes text)) := by
  refine .putPart fun fault h => ?_
  obtain ⟨-, rfl⟩ := textBytes_eq_error_iff.mp h
  rfl

theorem failsForContent_zeroEnded (text : String) : FailsForContent (putPart (zeroEndedBytes text)) := by
  refine .putPart fun fault h => ?_
  obtain ⟨-, rfl⟩ := zeroEndedBytes_eq_error_iff.mp h
  rfl

theorem failsForContent_length (n : Nat) : FailsForContent (putPart (lengthBytes n)) := by
  refine .putPart fun fault h => ?_
  obtain ⟨-, rfl⟩ := lengthBytes_eq_error_iff.mp h
  rfl

/-- Only the first step of a value can be refused. -/
theorem FailsForContent.begun (h : FailsForContent rest) (kind : Kind) (w : Writer) :
    FailsCleanly (beginValue kind >>= fun _ => rest) w := by
  intro fault w' fails
  rcases bind_eq_error_iff.mp fails with fails | ⟨⟨⟩, m, -, fails⟩
  · exact .inr (of_beginValue_eq_error fails)
  · exact .inl (h m fault w' fails)

theorem failsCleanly_scalar {part : Except Fault ByteArray} (h : FailsForContent (putPart part)) :
    FailsCleanly (scalar kind part) w :=
  FailsForContent.begun (h.bind .endValue) kind w

theorem failsCleanly_fixed {bytes : ByteArray} : FailsCleanly (scalar kind (.ok bytes)) w :=
  failsCleanly_scalar (.put bytes)

theorem failsCleanly_binary (data : Binary) : FailsCleanly (binary data) w := by
  refine FailsForContent.begun ?_ .binary w
  split
  · exact .bind (failsForContent_length _) (.bind (.put _) (.bind (failsForContent_length _)
      (.bind (.put data.bytes) .endValue)))
  · exact .bind (failsForContent_length _) (.bind (.put _) (.bind (.put data.bytes) .endValue))

theorem failsCleanly_regularExpression (pattern options : String) :
    FailsCleanly (regularExpression pattern options) w :=
  FailsForContent.begun (.bind (failsForContent_zeroEnded pattern)
    (.bind (failsForContent_zeroEnded options) .endValue)) .regularExpression w

theorem failsCleanly_dbPointer (collection : String) (id : ObjectId) :
    FailsCleanly (dbPointer collection id) w :=
  FailsForContent.begun (.bind (failsForContent_text collection) (.bind (.put id.toBytes) .endValue))
    .dbPointer w

/-- The writer of the scope is a fresh one, which refuses nothing. -/
theorem failsCleanly_scopedCode (code : String) (scope : List (String × Value)) :
    FailsCleanly (scopedCodeOf code (documentOf (fields scope))) w := by
  refine FailsForContent.begun ?_ .javaScriptWithScope w
  split
  · next fault h =>
    obtain ⟨-, rfl⟩ := textBytes_eq_error_iff.mp h
    exact .throw_behind rfl
  · split
    · next fault h => exact .throw_behind (alone_blamed (fields_blamed scope) h).isFormat
    · split
      · next fault h =>
        obtain ⟨-, rfl⟩ := lengthBytes_eq_error_iff.mp h
        exact .throw_behind rfl
      · exact .bind (.put _) .endValue

/-- The writer stands at the front of a container that has just been opened. -/
def Opened (index : Option Nat) (w : Writer) : Prop :=
  ∃ base outer, w = ⟨base, ⟨.empty, index⟩ :: outer, .name, none⟩

/-- The steps that enter a container: they fail cleanly and come to its front. -/
def Enters (write : Write Unit) (index : Option Nat) : Prop :=
  ∀ w, w.Tidy → FailsCleanly write w ∧ ∀ m, write w = .ok () m → Opened index m

theorem openContainer_enters (index : Option Nat) (blank : w.Blank) :
    FailsForContent (openContainer index) ∧ ∀ m, openContainer index w = .ok () m → Opened index m := by
  constructor
  · intro w fault w' h
    obtain ⟨-, rfl, -⟩ := openContainer_eq_error_iff.mp h
    rfl
  · intro m h
    obtain ⟨-, rfl⟩ := openContainer_eq_ok_iff.mp h
    refine ⟨w.base, w.containers, ?_⟩
    rw [blank.spent]

/-- A container that is a value is entered behind its tag and name. -/
theorem begun_enters (kind : Kind) (index : Option Nat) :
    Enters (beginValue kind >>= fun _ => openContainer index) index := by
  intro w tidy
  constructor
  · intro fault w' fails
    rcases bind_eq_error_iff.mp fails with fails | ⟨⟨⟩, m, ok, fails⟩
    · exact .inr (of_beginValue_eq_error fails)
    · have blank := (leads_beginValue kind).succeeds tidy ok
      exact .inl ((openContainer_enters index blank).1 m fault w' fails)
  · intro m ok
    obtain ⟨⟨⟩, m', begins, opens⟩ := bind_eq_ok_iff.mp ok
    exact (openContainer_enters index ((leads_beginValue kind).succeeds tidy begins)).2 m opens

theorem startArray_enters : Enters startArray (some 0) :=
  begun_enters .array (some 0)

theorem startDocument_enters : Enters startDocument none := by
  intro w tidy
  by_cases whole : w.phase = .initial
  · have opens : startDocument w = openContainer none w := by
      unfold startDocument
      rw [get_bind, if_neg (not_not.mpr whole)]
    have blank : w.Blank := by
      refine tidy.blank ?_
      rw [whole]
      decide
    obtain ⟨fails, enters⟩ := openContainer_enters none blank
    refine ⟨fun fault w' h => .inl (fails w fault w' (opens ▸ h)), fun m h => enters m (opens ▸ h)⟩
  · have begins : startDocument w = (beginValue .document >>= fun _ => openContainer none) w := by
      unfold startDocument
      rw [get_bind, if_pos whole]
    obtain ⟨fails, enters⟩ := begun_enters .document none w tidy
    exact ⟨fun fault w' h => fails fault w' (begins ▸ h), fun m h => enters m (begins ▸ h)⟩

/-- A container is refused before it is entered, or it fails for what it is to hold. -/
theorem Enters.failsCleanly {index : Option Nat} (h : Enters first index) (tidy : w.Tidy)
    (inner : ∀ base outer, FailsOnly (fun fault => fault.isFormat = true) rest
      ⟨base, ⟨.empty, index⟩ :: outer, .name, none⟩) : FailsCleanly (first >>= fun _ => rest) w := by
  intro fault w' fails
  rcases bind_eq_error_iff.mp fails with fails | ⟨⟨⟩, m, ok, fails⟩
  · exact (h w tidy).1 fault w' fails
  · obtain ⟨base, outer, rfl⟩ := (h w tidy).2 m ok
    exact .inl (inner base outer fault w' fails)

/-- A value is refused as a whole, or it fails for what it is. -/
theorem failsCleanly_value (v : Value) (tidy : w.Tidy) : FailsCleanly (value v) w := by
  cases v with
  | document entries =>
    exact startDocument_enters.failsCleanly tidy fun _ _ _ _ fails =>
      (entered_document_blamed (fields_blamed entries) fails).isFormat
  | array values =>
    exact startArray_enters.failsCleanly tidy fun _ _ _ _ fails =>
      (entered_array_blamed (items_blamed values) fails).isFormat
  | binary data => exact failsCleanly_binary data
  | regularExpression pattern options => exact failsCleanly_regularExpression pattern options
  | dbPointer collection id => exact failsCleanly_dbPointer collection id
  | javaScriptWithScope code scope => exact failsCleanly_scopedCode code scope
  | string text | javaScript text | symbol text => exact failsCleanly_scalar (failsForContent_text text)
  | double | undefined | objectId | boolean | dateTime | null | int32 | timestamp | int64 | decimal128
  | minKey | maxKey => exact failsCleanly_fixed

/-- A name that is not taken is not kept. -/
theorem failsCleanly_name (text : String) : FailsCleanly (name text) w :=
  fun _ _ fails => .inr (of_name_eq_error fails)

/-- A container is refused to be left, or it has become too large. -/
theorem failsCleanly_of_same_or_outgrown
    (h : ∀ fault w', write w = .error fault w' → w' = w ∨ w'.Outgrown fault) : FailsCleanly write w := by
  intro fault w' fails
  rcases h fault w' fails with same | ⟨rfl, -⟩
  · exact .inr same
  · exact .inl rfl

end Write

namespace Writer

variable {call : Call} {calls : List Call} {w w' : Writer}

/-- A call fails for what it writes, or it is refused and leaves the writer as it was. -/
theorem Tidy.failsCleanly (h : w.Tidy) (call : Call) : Write.FailsCleanly call.run w := by
  cases hv : call.value? with
  | some v =>
    rw [Call.run_of_value? hv]
    exact Write.failsCleanly_value v h
  | none =>
    cases call with
    | startDocument => exact (Write.startDocument_enters w h).1
    | startArray => exact (Write.startArray_enters w h).1
    | endDocument => exact Write.failsCleanly_of_same_or_outgrown fun _ _ => Write.of_endDocument_eq_error
    | endArray => exact Write.failsCleanly_of_same_or_outgrown fun _ _ => Write.of_endArray_eq_error
    | name text => exact Write.failsCleanly_name text
    | _ => cases hv

/-- Behind any calls, failed ones included, a call that is refused leaves all of the writer as it was: the
bytes, the open containers with the names of their next items, the phase and the name in store. -/
theorem eq_of_run_misuse {base : ByteArray} {cause : Misuse}
    (h : call.run (Call.attemptAll calls (.ofBytes base)) = .error (.misuse cause) w') :
    w' = Call.attemptAll calls (.ofBytes base) := by
  have tidy := (tidy_ofBytes base).attemptAll calls
  exact (tidy.failsCleanly call _ w' h).resolve_left Bool.false_ne_true

/-- A document that fails behind its first field, as the item of an array, and the end of the array. -/
def strayCalls : List Call :=
  [.startDocument, .name "a", .startArray, .value (.document [("b", .null), ("\x00", .null)]), .endArray]

/-- The writer behind `strayCalls`: it is still inside the document that has failed. -/
def strayWriter : Writer where
  containers := [⟨⟨#[10, 98, 0]⟩, none⟩, ⟨⟨#[3, 48, 0]⟩, some 1⟩, ⟨⟨#[4, 97, 0]⟩, none⟩]
  phase := .name

/-- A whole document is refused there before a name is given. -/
theorem eq_of_run_misuse_stray :
    Call.run (.document ⟨[("c", .null)]⟩) (Call.attemptAll strayCalls (.ofBytes .empty)) =
        .error (.misuse (.writeValue .document .name)) strayWriter ∧
      strayWriter = Call.attemptAll strayCalls (.ofBytes .empty) := by
  have refused : Call.run (.document ⟨[("c", .null)]⟩) (Call.attemptAll strayCalls (.ofBytes .empty)) =
      .error (.misuse (.writeValue .document .name)) strayWriter := by
    cbv
  exact ⟨refused, eq_of_run_misuse refused⟩

end Writer

end DocumentClient
