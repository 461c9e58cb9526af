import DocumentClient.Proofs.Wire.Nesting
import DocumentClient.Proofs.Wire.Streaming

/-!
# Writers that are used after a failure

A call that fails keeps what it has written, the tag and the name of its value for one. A caller may go
on all the same. In a document the writer is stuck then: it waits for a value whose name has been used
up, and no call moves it any more. In an array it names the next item by itself and goes on, so what is
left of the failure gets into the finished document. The same happens where a container has become too
large, since its bytes stay.

Results:
1. `Blocked.attempt_eq`: no call moves a writer that waits for a value without a name.
2. `Write.value_harmless`: a value that fails in a document leaves a stuck writer, or one that accepted
   calls would have left; induction on the value, its fields and its items.
3. `Intact.attempt`, `Intact.attemptAll`: so much stays true over any calls whose failures are contained.
4. `decode_of_attemptAll`: what a writer gives out after such failures is a document.
-/

namespace DocumentClient

open Outcome Grammar

/-! ## Definitions -/

namespace Writer

/-- The fault is that of a container which has become too large; a scalar that is too large leaves the
writer before its value. -/
def Outgrown (w : Writer) (fault : Fault) : Prop :=
  fault = .documentTooLarge ∧ w.phase = .name

instance (w : Writer) (fault : Fault) : Decidable (w.Outgrown fault) :=
  inferInstanceAs (Decidable (_ ∧ _))

namespace Call

/-- The writer behind the call, whether it accepts the call or not. -/
def attempt (call : Call) (w : Writer) : Writer :=
  left call.run w

/-- The writer behind the calls, which go on after each failure. -/
def attemptAll : List Call → Writer → Writer
  | [], w => w
  | call :: calls, w => attemptAll calls (call.attempt w)

/-- Every binary value that the call writes has a subtype that some byte announces. -/
def SubtypesCanonical (call : Call) : Prop :=
  ∀ v, call.value? = some v → v.SubtypesCanonical

/-- If the call fails, it leaves the writer as it was, or else in a document and not because a container
is too large. -/
def Contained (call : Call) (w : Writer) : Prop :=
  match call.run w with
  | .ok _ _ => True
  | .error fault w' => w' = w ∨ w'.inArray = false ∧ ¬ w'.Outgrown fault

/-- The same of each of the calls, where the calls before it have left the writer. -/
def AllContained : List Call → Writer → Prop
  | [], _ => True
  | call :: calls, w => call.Contained w ∧ AllContained calls (call.attempt w)

instance (call : Call) (w : Writer) : Decidable (call.Contained w) :=
  match h : call.run w with
  | .ok _ _ => isTrue (by rw [Contained, h]; trivial)
  | .error fault w' =>
    decidable_of_iff (w' = w ∨ w'.inArray = false ∧ ¬ w'.Outgrown fault) (by rw [Contained, h])

instance decidableAllContained : (calls : List Call) → (w : Writer) → Decidable (AllContained calls w)
  | [], _ => isTrue trivial
  | call :: calls, w =>
    have := decidableAllContained calls (call.attempt w)
    inferInstanceAs (Decidable (call.Contained w ∧ AllContained calls (call.attempt w)))

end Call

/-- The writer waits for a value that has no name. -/
def Blocked (w : Writer) : Prop :=
  w.phase = .value ∧ w.pendingName = none

/-- The writer takes no value of any kind. -/
def Refuses (w : Writer) : Prop :=
  ∀ kind, ∃ fault, Write.beginValue kind w = .error fault w

/-- Calls that are accepted lead from one writer to another. -/
def Reaches (w w' : Writer) : Prop :=
  ∃ calls : List Call, (∀ call ∈ calls, call.SubtypesCanonical) ∧ Call.runAll calls w = .ok () w'

/-- A writer that is left by a failure is stuck, or calls that are accepted lead to it. -/
def Harmless (w w' : Writer) : Prop :=
  w'.Blocked ∨ w.Reaches w'

/-- The writer is stuck, or accepted calls have led to it. -/
def Intact (w : Writer) : Prop :=
  Harmless {} w

end Writer

open Writer

/-- If the step fails in a document, and not because a container is too large, it does no harm. -/
def Write.FailsHarmlessly (write : Write Unit) (w : Writer) : Prop :=
  ∀ fault w', write w = .error fault w' → w'.inArray = false → ¬ w'.Outgrown fault → w.Harmless w'

namespace Writer

variable {w w' w₁ w₂ : Writer} {text : String}

namespace Reaches

theorem refl (w : Writer) : w.Reaches w :=
  ⟨[], List.forall_mem_nil _, rfl⟩

theorem of_run (call : Call) (canonical : call.SubtypesCanonical) (ok : call.run w = .ok () w') :
    w.Reaches w' :=
  ⟨[call], List.forall_mem_singleton.mpr canonical, by rw [Call.runAll_singleton, ok]⟩

theorem of_value {v : Value} (canonical : v.SubtypesCanonical) (ok : Write.value v w = .ok () w') :
    w.Reaches w' := by
  refine of_run (.value v) ?_ ok
  rintro _ ⟨⟩
  exact canonical

theorem trans (h : w.Reaches w') (next : w'.Reaches w₂) : w.Reaches w₂ := by
  obtain ⟨calls, canonical, ok⟩ := h
  obtain ⟨more, others, accepted⟩ := next
  refine ⟨calls ++ more, List.forall_mem_append.mpr ⟨canonical, others⟩, ?_⟩
  rw [Call.runAll_append, bind_of_ok ok, accepted]

end Reaches

/-! ## A writer that takes no value -/

namespace Refuses

theorem startArray (h : w.Refuses) : ∃ fault, Write.startArray w = .error fault w := by
  obtain ⟨fault, begins⟩ := h .array
  exact ⟨fault, bind_eq_error_iff.mpr (.inl begins)⟩

theorem startDocument (h : w.Refuses) (late : w.phase ≠ .initial) :
    ∃ fault, Write.startDocument w = .error fault w := by
  obtain ⟨fault, begins⟩ := h .document
  refine ⟨fault, ?_⟩
  unfold Write.startDocument
  rw [get_bind, if_pos late]
  exact bind_eq_error_iff.mpr (.inl begins)

/-- A document may still be the whole. -/
theorem value (h : w.Refuses) (v : Value) (late : w.phase = .initial → ∀ entries, v ≠ .document entries) :
    ∃ fault, Write.value v w = .error fault w := by
  rcases exists_write_eq v with ⟨rest, write⟩ | ⟨entries, rfl⟩
  · obtain ⟨fault, begins⟩ := h v.kind
    rw [write]
    exact ⟨fault, bind_eq_error_iff.mpr (.inl begins)⟩
  · obtain ⟨fault, start⟩ := h.startDocument fun whole => late whole entries rfl
    exact ⟨fault, bind_eq_error_iff.mpr (.inl start)⟩

end Refuses

namespace Blocked

theorem refuses (h : w.Blocked) : w.Refuses := by
  obtain ⟨base, containers, _, _⟩ := w
  obtain ⟨rfl, rfl⟩ := h
  exact fun kind => ⟨_, rfl⟩

/-- No call moves a writer that waits for a value without a name. -/
theorem attempt_eq (h : w.Blocked) (call : Call) : call.attempt w = w := by
  have whole : w.phase ≠ .initial := by
    rw [h.1]
    decide
  have element : w.phase ≠ .name := by
    rw [h.1]
    decide
  suffices fails : ∃ fault, call.run w = .error fault w by
    obtain ⟨fault, fails⟩ := fails
    exact left_of_error fails
  cases hv : call.value? with
  | some v =>
    rw [Call.run_of_value? hv]
    exact h.refuses.value v fun initial => absurd initial whole
  | none =>
    cases call with
    | startDocument => exact h.refuses.startDocument whole
    | startArray => exact h.refuses.startArray
    | endDocument => exact ⟨_, guard_eq_error_iff.mpr (.inl ⟨.inl element, rfl, rfl⟩)⟩
    | endArray => exact ⟨_, guard_eq_error_iff.mpr (.inl ⟨.inl element, rfl, rfl⟩)⟩
    | name text => exact ⟨_, guard_eq_error_iff.mpr (.inl ⟨element, rfl, rfl⟩)⟩
    | _ => cases hv

end Blocked

end Writer

/-! ## What a failed step leaves -/

namespace Write

variable {w w' w₁ : Writer} {text : String} {kind : Kind} {fault : Fault} {first rest write : Write Unit}

theorem of_beginValue_eq_error (h : beginValue kind w = .error fault w') : w' = w := by
  obtain ⟨base, containers, phase, name⟩ := w
  cases phase with
  | value =>
    cases name with
    | none =>
      cases h
      rfl
    | some text => cases h
  | name =>
    rcases containers with _ | ⟨⟨body, _ | index⟩, outer⟩
    · cases h
      rfl
    · cases h
      rfl
    · cases h
  | initial | done =>
    cases h
    rfl

theorem of_name_eq_error (h : name text w = .error fault w') : w' = w := by
  unfold name at h
  rw [get_bind] at h
  simp only [guard_eq_error_iff] at h
  rcases h with ⟨-, -, same⟩ | ⟨-, ⟨-, -, same⟩ | ⟨-, ⟨-, -, same⟩ | ⟨-, h⟩⟩⟩
  · exact same.symm
  · exact same.symm
  · exact same.symm
  · cases h

/-- A container that cannot be left is too large, or there is none. -/
theorem of_closeContainer_eq_error (h : closeContainer w = .error fault w') :
    (w.containers = [] ∧ w' = w) ∨ (fault = .documentTooLarge ∧ w'.phase = w.phase) := by
  obtain ⟨base, containers, phase, name⟩ := w
  unfold closeContainer at h
  rw [get_bind] at h
  cases containers with
  | nil =>
    cases h
    exact .inl ⟨rfl, rfl⟩
  | cons container outer =>
    obtain ⟨body, index⟩ := container
    dsimp only at h
    rw [set_bind] at h
    cases hl : lengthBytes (body.size + minDocumentSize) with
    | error large =>
      rw [hl] at h
      cases h
      refine .inr ⟨(lengthBytes_eq_error_iff.mp hl).2, ?_⟩
      cases outer <;> rfl
    | ok size =>
      rw [hl] at h
      cases h

theorem of_endDocument_eq_error (h : endDocument w = .error fault w') : w' = w ∨ w'.Outgrown fault := by
  unfold endDocument at h
  rw [get_bind] at h
  rcases guard_eq_error_iff.mp h with ⟨-, -, same⟩ | ⟨fine, h⟩
  · exact .inl same.symm
  · have before : w.phase = .name := not_not.mp (not_or.mp fine).1
    exact (of_closeContainer_eq_error h).imp And.right fun large => ⟨large.1, large.2.trans before⟩

theorem of_endArray_eq_error (h : endArray w = .error fault w') : w' = w ∨ w'.Outgrown fault := by
  unfold endArray at h
  rw [get_bind] at h
  rcases guard_eq_error_iff.mp h with ⟨-, -, same⟩ | ⟨fine, h⟩
  · exact .inl same.symm
  · have before : w.phase = .name := not_not.mp (not_or.mp fine).1
    exact (of_closeContainer_eq_error h).imp And.right fun large => ⟨large.1, large.2.trans before⟩

/-! ## Scalars -/

/-- However it ends, the writer has only got more bytes. -/
def Appends (write : Write Unit) : Prop :=
  ∀ w, ∃ bs, left write w = w.add bs

/-- If it fails, the writer has only got more bytes. -/
def FailsAppending (write : Write Unit) : Prop :=
  ∀ w fault w', write w = .error fault w' → ∃ bs, w' = w.add bs

theorem Appends.put (bytes : ByteArray) : Appends (put bytes) :=
  fun w => ⟨bytes.data.toList, Writer.append_eq_add w bytes⟩

theorem Appends.putPart (part : Except Fault ByteArray) : Appends (putPart part) := by
  cases part with
  | ok bytes => exact .put bytes
  | error fault => exact fun w => ⟨[], (Writer.add_nil w).symm⟩

theorem FailsAppending.endValue : FailsAppending endValue :=
  fun _ _ _ h => nomatch h

theorem FailsAppending.bind (hf : Appends first) (hr : FailsAppending rest) :
    FailsAppending (first >>= fun _ => rest) := by
  intro w fault w' h
  obtain ⟨bs, left⟩ := hf w
  rcases bind_eq_error_iff.mp h with h | ⟨⟨⟩, m, ok, h⟩
  · rw [left_of_error h] at left
    exact ⟨bs, left⟩
  · rw [left_of_ok ok] at left
    subst left
    obtain ⟨more, rfl⟩ := hr _ _ _ h
    exact ⟨bs ++ more, Writer.add_add _ _ _⟩

/-- Behind the tag of a value that has not been finished, a document is stuck. -/
theorem blocked_of_awaits (awaits : w.Awaits text w₁) {bs : List UInt8}
    (inDocument : (((w₁.add (header kind text)).inPhase w.phase).add bs).inArray = false) :
    (((w₁.add (header kind text)).inPhase w.phase).add bs).Blocked := by
  cases awaits with
  | field => exact ⟨rfl, rfl⟩
  | item => cases inDocument

/-- The value does no harm wherever it fails. -/
def ValueHarmless (v : Value) : Prop :=
  ∀ ⦃w w₁ : Writer⦄ ⦃text : String⦄, v.SubtypesCanonical → w.Awaits text w₁ →
    FailsHarmlessly (value v) w

/-- The fields do no harm wherever they fail. -/
def FieldsHarmless (entries : List (String × Value)) : Prop :=
  ∀ ⦃base body : ByteArray⦄ ⦃outer : List OpenContainer⦄, Value.FieldsSubtypesCanonical entries →
    FailsHarmlessly (fields entries) ⟨base, ⟨body, none⟩ :: outer, .name, none⟩

/-- The items do no harm wherever they fail. -/
def ItemsHarmless (values : List Value) : Prop :=
  ∀ ⦃base body : ByteArray⦄ ⦃outer : List OpenContainer⦄ ⦃index : Nat⦄,
    Value.ItemsSubtypesCanonical values →
    FailsHarmlessly (items values) ⟨base, ⟨body, some index⟩ :: outer, .name, none⟩

/-- What fails behind its tag and name leaves a stuck document. -/
theorem FailsAppending.harmless {v : Value} (h : FailsAppending rest)
    (write : value v = beginValue v.kind >>= fun _ => rest) : ValueHarmless v := by
  intro w w₁ text _ awaits fault w' fails inDocument _
  rw [write, bind_of_ok (beginValue_of_awaits awaits)] at fails
  obtain ⟨bs, rfl⟩ := h _ _ _ fails
  exact .inl (blocked_of_awaits awaits inDocument)

theorem scalar_harmless {v : Value} {part : Except Fault ByteArray}
    (write : value v = scalar v.kind part) : ValueHarmless v :=
  FailsAppending.harmless (.bind (.putPart part) .endValue) write

theorem binary_harmless (data : Binary) : ValueHarmless (.binary data) := by
  by_cases old : data.subtype = .binaryOld
  · refine FailsAppending.harmless (.bind (.putPart (lengthBytes (data.bytes.size + 4)))
      (.bind (.put (.push .empty data.subtype.toByte)) (.bind (.putPart (lengthBytes data.bytes.size))
        (.bind (.put data.bytes) .endValue)))) ?_
    rw [value, binary]
    simp only [if_pos old]
    rfl
  · refine FailsAppending.harmless (.bind (.putPart (lengthBytes data.bytes.size))
      (.bind (.put (.push .empty data.subtype.toByte)) (.bind (.put data.bytes) .endValue))) ?_
    rw [value, binary]
    simp only [if_neg old]
    rfl

theorem regularExpression_harmless (pattern options : String) :
    ValueHarmless (.regularExpression pattern options) :=
  FailsAppending.harmless (.bind (.putPart (zeroEndedBytes pattern))
    (.bind (.putPart (zeroEndedBytes options)) .endValue)) rfl

theorem dbPointer_harmless (collection : String) (id : ObjectId) :
    ValueHarmless (.dbPointer collection id) :=
  FailsAppending.harmless (.bind (.putPart (textBytes collection))
    (.bind (.put id.toBytes) .endValue)) rfl

theorem scopedCode_harmless (code : String) (scope : List (String × Value)) :
    ValueHarmless (.javaScriptWithScope code scope) := by
  refine FailsAppending.harmless ?_ rfl
  have throws (bytes : ByteArray) (fault : Fault) :
      FailsAppending (put bytes >>= fun _ => throw fault) :=
    .bind (.put bytes) fun w _ _ h => by
      cases h
      exact ⟨[], (Writer.add_nil w).symm⟩
  cases textBytes code with
  | error fault => exact throws _ fault
  | ok text =>
    cases alone (documentOf (fields scope)) with
    | error fault => exact throws _ fault
    | ok bytes =>
      cases hl : lengthBytes (4 + text.size + bytes.size) with
      | error fault =>
        simp only [hl]
        exact throws _ fault
      | ok length =>
        simp only [hl]
        exact .bind (.put _) .endValue

/-! ## Containers -/

/-- Failures do no harm if those of the first part do none, and those of the second none where accepted
calls lead. -/
theorem FailsHarmlessly.bind (hf : FailsHarmlessly first w)
    (hr : ∀ m, first w = .ok () m → w.Reaches m ∧ FailsHarmlessly rest m) :
    FailsHarmlessly (first >>= fun _ => rest) w := by
  intro fault w' fails inDocument small
  rcases bind_eq_error_iff.mp fails with fails | ⟨⟨⟩, m, ok, fails⟩
  · exact hf fault w' fails inDocument small
  · obtain ⟨reaches, harmless⟩ := hr m ok
    exact (harmless fault w' fails inDocument small).imp_right reaches.trans

/-- The second part may also fail for the size of a container. -/
theorem FailsHarmlessly.finish (hf : FailsHarmlessly first w)
    (hr : ∀ m, first w = .ok () m → ∀ fault m', rest m = .error fault m' → m'.Outgrown fault) :
    FailsHarmlessly (first >>= fun _ => rest) w := by
  intro fault w' fails inDocument small
  rcases bind_eq_error_iff.mp fails with fails | ⟨⟨⟩, m, ok, fails⟩
  · exact hf fault w' fails inDocument small
  · exact absurd (hr m ok fault w' fails) small

/-- A step that fails without a trace does no harm. -/
theorem FailsHarmlessly.of_same (h : ∀ fault w', write w = .error fault w' → w' = w) :
    FailsHarmlessly write w := by
  intro fault w' fails _ _
  rw [h fault w' fails]
  exact .inr (.refl w)

theorem FailsHarmlessly.of_error (h : write w = .error fault w) : FailsHarmlessly write w :=
  .of_same fun _ _ fails => by
    rw [h] at fails
    cases fails
    rfl

theorem FailsHarmlessly.of_same_or_outgrown
    (h : ∀ fault w', write w = .error fault w' → w' = w ∨ w'.Outgrown fault) :
    FailsHarmlessly write w := by
  intro fault w' fails _ small
  rw [(h fault w' fails).resolve_right small]
  exact .inr (.refl w)

theorem openContainer_harmless {index : Option Nat} (awaits : w.Awaits text w₁)
    (start : write w = openContainer index ((w₁.add (header kind text)).inPhase w.phase)) :
    FailsHarmlessly write w := by
  intro fault w' fails inDocument _
  rw [start] at fails
  obtain ⟨-, -, same⟩ := openContainer_eq_error_iff.mp fails
  rw [← Writer.add_nil (Writer.inPhase _ _)] at same
  subst same
  exact .inl (blocked_of_awaits awaits inDocument)

/-- An open container that cannot be left is too large. -/
theorem outgrown_of_endDocument {base body : ByteArray} {outer : List OpenContainer}
    (h : endDocument ⟨base, ⟨body, none⟩ :: outer, .name, none⟩ = .error fault w') :
    w'.Outgrown fault := by
  unfold endDocument at h
  rw [get_bind, if_neg (by simp [Writer.inArray])] at h
  exact (of_closeContainer_eq_error h).resolve_left fun outside => List.cons_ne_nil _ _ outside.1

theorem outgrown_of_endArray {base body : ByteArray} {outer : List OpenContainer} {index : Nat}
    (h : endArray ⟨base, ⟨body, some index⟩ :: outer, .name, none⟩ = .error fault w') :
    w'.Outgrown fault := by
  unfold endArray at h
  rw [get_bind, if_neg (by simp [Writer.inArray])] at h
  exact (of_closeContainer_eq_error h).resolve_left fun outside => List.cons_ne_nil _ _ outside.1

/-- The rest of a document that has been entered. -/
theorem entered_document_harmless {entries : List (String × Value)}
    (harmless : FieldsHarmless entries) (canonical : Value.FieldsSubtypesCanonical entries)
    (base : ByteArray) (outer : List OpenContainer) :
    FailsHarmlessly (fields entries >>= fun _ => endDocument)
      ⟨base, ⟨.empty, none⟩ :: outer, .name, none⟩ := by
  refine (harmless canonical).finish fun m ok fault m' fails => ?_
  obtain ⟨-, rfl⟩ := (fields_laid entries).mp ok
  exact outgrown_of_endDocument fails

theorem document_harmless {entries : List (String × Value)} (harmless : FieldsHarmless entries) :
    ValueHarmless (.document entries) := by
  intro w w₁ text canonical awaits
  have start : FailsHarmlessly startDocument w :=
    openContainer_harmless awaits (startDocument_of_awaits awaits)
  refine start.bind fun m ok => ⟨.of_run .startDocument nofun ok, ?_⟩
  obtain rfl := opened_of_awaits awaits ((startDocument_eq_ok_iff awaits).mp ok)
  exact entered_document_harmless harmless canonical _ _

theorem array_harmless {values : List Value} (harmless : ItemsHarmless values) :
    ValueHarmless (.array values) := by
  intro w w₁ text canonical awaits
  have start : FailsHarmlessly startArray w :=
    openContainer_harmless awaits (startArray_of_awaits awaits)
  refine start.bind fun m ok => ⟨.of_run .startArray nofun ok, ?_⟩
  obtain rfl := opened_of_awaits awaits ((startArray_eq_ok_iff awaits).mp ok)
  refine (harmless canonical).finish fun m ok fault m' fails => ?_
  obtain ⟨-, rfl⟩ := (items_laid values).mp ok
  exact outgrown_of_endArray fails

/-! ## Whole values -/

theorem fields_nil_harmless : FieldsHarmless [] :=
  fun _ _ _ _ => FailsHarmlessly.of_same fun _ _ h => nomatch h

theorem fields_cons_harmless {name : String} {v : Value} {rest : List (String × Value)}
    (here : ValueHarmless v) (behind : FieldsHarmless rest) : FieldsHarmless ((name, v) :: rest) := by
  intro base body outer canonical
  obtain ⟨canonical, others⟩ := canonical
  refine (FailsHarmlessly.of_same fun _ _ => of_name_eq_error).bind fun m ok =>
    ⟨.of_run (.name name) nofun ok, ?_⟩
  obtain ⟨-, rfl⟩ := name_eq_ok_iff.mp ok
  have awaits := Writer.Awaits.field base body outer name
  refine (here canonical awaits).bind fun m ok => ⟨.of_value canonical ok, ?_⟩
  obtain ⟨-, rfl⟩ := (value_laid v awaits).mp ok
  exact behind others

theorem items_nil_harmless : ItemsHarmless [] :=
  fun _ _ _ _ _ => FailsHarmlessly.of_same fun _ _ h => nomatch h

theorem items_cons_harmless {v : Value} {rest : List Value} (here : ValueHarmless v)
    (behind : ItemsHarmless rest) : ItemsHarmless (v :: rest) := by
  intro base body outer index canonical
  obtain ⟨canonical, others⟩ := canonical
  have awaits := Writer.Awaits.item base body outer index
  refine (here canonical awaits).bind fun m ok => ⟨.of_value canonical ok, ?_⟩
  obtain ⟨-, rfl⟩ := (value_laid v awaits).mp ok
  exact behind others

mutual

/-- A value that fails in a document leaves it stuck, or where accepted calls lead. -/
theorem value_harmless : (v : Value) → ValueHarmless v
  | .document entries => document_harmless (fields_harmless entries)
  | .array values => array_harmless (items_harmless values)
  | .binary data => binary_harmless data
  | .regularExpression pattern options => regularExpression_harmless pattern options
  | .dbPointer collection id => dbPointer_harmless collection id
  | .javaScriptWithScope code scope => scopedCode_harmless code scope
  | .double _ | .string _ | .undefined | .objectId _ | .boolean _ | .dateTime _ | .null
  | .javaScript _ | .symbol _ | .int32 _ | .timestamp _ | .int64 _ | .decimal128 _ | .minKey
  | .maxKey => scalar_harmless rfl

theorem fields_harmless : (entries : List (String × Value)) → FieldsHarmless entries
  | [] => fields_nil_harmless
  | (_, v) :: rest => fields_cons_harmless (value_harmless v) (fields_harmless rest)

theorem items_harmless : (values : List Value) → ItemsHarmless values
  | [] => items_nil_harmless
  | v :: rest => items_cons_harmless (value_harmless v) (items_harmless rest)

end

end Write

/-! ## Calls -/

namespace Writer

variable {calls : List Call} {call : Call} {w w' : Writer} {v : Value}

namespace Stands

theorem refuses_or_awaits (h : Stands calls w) : w.Refuses ∨ ∃ text w₁, w.Awaits text w₁ := by
  by_cases place : ∃ text w₁, w.Awaits text w₁
  · exact .inr place
  · refine .inl fun kind => ?_
    cases begins : Write.beginValue kind w with
    | ok u m => exact absurd (h.ready begins).2 place
    | error fault m =>
      rw [Write.of_beginValue_eq_error begins]
      exact ⟨fault, rfl⟩

theorem value_harmless (h : Stands calls w) (canonical : v.SubtypesCanonical) :
    Write.FailsHarmlessly (Write.value v) w := by
  rcases h.refuses_or_awaits with refuses | ⟨text, w₁, awaits⟩
  · by_cases whole : w.phase = .initial ∧ ∃ entries, v = .document entries
    · obtain ⟨initial, entries, rfl⟩ := whole
      obtain ⟨-, base, rfl⟩ := h.of_initial initial
      have start : Write.FailsHarmlessly Write.startDocument (.ofBytes base) :=
        .of_same fun _ _ fails => nomatch fails
      refine start.bind fun m ok => ⟨.of_run .startDocument nofun ok, ?_⟩
      cases ok
      exact Write.entered_document_harmless (Write.fields_harmless entries) canonical base []
    · obtain ⟨fault, fails⟩ := refuses.value v fun initial entries same =>
        whole ⟨initial, entries, same⟩
      exact .of_error fails
  · exact Write.value_harmless v canonical awaits

theorem startDocument_harmless (h : Stands calls w) :
    Write.FailsHarmlessly Write.startDocument w := by
  rcases h.refuses_or_awaits with refuses | ⟨text, w₁, awaits⟩
  · by_cases whole : w.phase = .initial
    · obtain ⟨-, base, rfl⟩ := h.of_initial whole
      exact .of_same fun _ _ fails => nomatch fails
    · obtain ⟨fault, fails⟩ := refuses.startDocument whole
      exact .of_error fails
  · exact Write.openContainer_harmless awaits (Write.startDocument_of_awaits awaits)

theorem startArray_harmless (h : Stands calls w) : Write.FailsHarmlessly Write.startArray w := by
  rcases h.refuses_or_awaits with refuses | ⟨text, w₁, awaits⟩
  · obtain ⟨fault, fails⟩ := refuses.startArray
    exact .of_error fails
  · exact Write.openContainer_harmless awaits (Write.startArray_of_awaits awaits)

/-- A call does no harm where accepted calls have led. -/
theorem run_harmless (h : Stands calls w) (canonical : call.SubtypesCanonical) :
    Write.FailsHarmlessly call.run w := by
  cases hv : call.value? with
  | some v =>
    rw [Call.run_of_value? hv]
    exact h.value_harmless (canonical v hv)
  | none =>
    cases call with
    | startDocument => exact h.startDocument_harmless
    | startArray => exact h.startArray_harmless
    | name text => exact .of_same fun _ _ => Write.of_name_eq_error
    | endDocument => exact .of_same_or_outgrown fun _ _ => Write.of_endDocument_eq_error
    | endArray => exact .of_same_or_outgrown fun _ _ => Write.of_endArray_eq_error
    | _ => cases hv

end Stands

/-! ## Any calls -/

theorem Reaches.exists_stands (h : Reaches {} w) : ∃ calls, Stands calls w := by
  obtain ⟨calls, -, ok⟩ := h
  exact ⟨_, (Stands.initial .empty).runAll ok⟩

namespace Intact

/-- A call whose failure is contained keeps the writer intact. -/
theorem attempt (h : w.Intact) (canonical : call.SubtypesCanonical) (contained : call.Contained w) :
    (call.attempt w).Intact := by
  rcases h with blocked | reaches
  · rw [blocked.attempt_eq]
    exact .inl blocked
  · cases run : call.run w with
    | ok u m =>
      rw [Call.attempt, left_of_ok run]
      exact .inr (reaches.trans (.of_run call canonical run))
    | error fault m =>
      rw [Call.attempt, left_of_error run]
      rw [Call.Contained, run] at contained
      rcases contained with rfl | ⟨inDocument, small⟩
      · exact .inr reaches
      · obtain ⟨calls, stands⟩ := reaches.exists_stands
        exact (stands.run_harmless canonical fault m run inDocument small).imp_right reaches.trans

/-- Calls one after another keep the writer intact. -/
theorem attemptAll (h : w.Intact) (canonical : ∀ call ∈ calls, call.SubtypesCanonical)
    (contained : Call.AllContained calls w) : (Call.attemptAll calls w).Intact := by
  induction calls generalizing w with
  | nil => exact h
  | cons call calls ih =>
    obtain ⟨here, others⟩ := List.forall_mem_cons.mp canonical
    exact ih (h.attempt here contained.1) others contained.2

end Intact

/-- The binary values in a part have subtypes that some byte announces. -/
def Part.SubtypesCanonical : Part → Prop
  | .value v => v.SubtypesCanonical
  | .fields entries => Value.FieldsSubtypesCanonical entries
  | .items values => Value.ItemsSubtypesCanonical values

theorem Describes.subtypesCanonical {part : Part} (h : Describes calls part)
    (canonical : ∀ call ∈ calls, call.SubtypesCanonical) : part.SubtypesCanonical := by
  induction h with
  | whole h => exact canonical _ (List.mem_singleton.mpr rfl) _ h
  | document inner ih =>
    exact ih (List.forall_mem_append.mp (List.forall_mem_cons.mp canonical).2).1
  | array inner ih =>
    exact ih (List.forall_mem_append.mp (List.forall_mem_cons.mp canonical).2).1
  | noField => trivial
  | field here behind ihh ihb =>
    obtain ⟨first, rest⟩ := List.forall_mem_append.mp (List.forall_mem_cons.mp canonical).2
    exact ⟨ihh first, ihb rest⟩
  | noItem => trivial
  | item here behind ihh ihb =>
    obtain ⟨first, rest⟩ := List.forall_mem_append.mp canonical
    exact ⟨ihh first, ihb rest⟩

/-- What an intact writer gives out is the layout of a document. -/
theorem Intact.exists_layout {bytes : ByteArray} (h : w.Intact) (finished : w.finish = .ok bytes) :
    ∃ doc : Document, doc.Writable ∧ doc.SubtypesCanonical ∧ bytes = doc.layout.toByteArray := by
  have done : w.phase = .done := by
    unfold finish at finished
    split at finished
    · cases finished
    · next done => exact not_not.mp done
  rcases h with ⟨blocked, -⟩ | ⟨calls, canonical, ok⟩
  · rw [done] at blocked
    cases blocked
  · obtain ⟨doc, describes⟩ :=
      ((Stands.initial .empty).runAll ok).exists_describes (decide_eq_true done)
    obtain ⟨writable, rfl⟩ := describes.runAll_eq_ok_iff.mp ok
    cases finished
    exact ⟨doc, writable, describes.subtypesCanonical canonical, ByteArray.empty_append⟩

/-- What a writer gives out after any calls, some of which may have failed in a document, is a document,
even though it may nest too deep for a reader. -/
theorem decode_of_attemptAll {bytes : ByteArray}
    (canonical : ∀ call ∈ calls, call.SubtypesCanonical) (contained : Call.AllContained calls {})
    (h : (Call.attemptAll calls {}).finish = .ok bytes) :
    (∃ doc, Document.decode bytes = .ok doc) ∨ Document.decode bytes = .error .nestingTooDeep := by
  have intact : Intact (Call.attemptAll calls {}) := .attemptAll (.inr (.refl {})) canonical contained
  obtain ⟨doc, writable, canonical, rfl⟩ := intact.exists_layout h
  rw [Document.decode_layout writable canonical]
  split
  · exact .inl ⟨_, rfl⟩
  · exact .inr rfl

/-- A name that cannot end, a document that fails behind its first field, and an end that is none. -/
def mishaps : List Call :=
  [.startDocument, .name "\x00", .name "a", .value (.document [("b", .null), ("\x00", .null)]),
    .endArray, .endDocument, .endDocument]

/-- What a writer gives out behind `mishaps`: the first field of the document is in it. -/
def mishapsBytes : ByteArray :=
  ⟨#[16, 0, 0, 0, 3, 97, 0, 8, 0, 0, 0, 10, 98, 0, 0, 0]⟩

theorem decode_of_attemptAll_mishaps :
    (∀ call ∈ mishaps, call.SubtypesCanonical) ∧ Call.AllContained mishaps {} ∧
      (Call.attemptAll mishaps {}).finish = .ok mishapsBytes ∧
        ((∃ doc, Document.decode mishapsBytes = .ok doc) ∨
          Document.decode mishapsBytes = .error .nestingTooDeep) := by
  have canonical : ∀ call ∈ mishaps, call.SubtypesCanonical := by
    simp [mishaps, Call.SubtypesCanonical, Call.value?, Value.SubtypesCanonical,
      Value.FieldsSubtypesCanonical]
  have contained : Call.AllContained mishaps {} := by
    apply of_decide_eq_true
    cbv
  have finished : (Call.attemptAll mishaps {}).finish = .ok mishapsBytes := by
    cbv
  exact ⟨canonical, contained, finished, decode_of_attemptAll canonical contained finished⟩

/-- A pattern that cannot end, as the item of an array. -/
def leak : List Call :=
  [.startDocument, .name "a", .startArray, .regularExpression "x\x00" "i", .endArray, .endDocument]

/-- What a writer gives out behind `leak`: the tag and the index of the pattern, and nothing of it. -/
def leakBytes : ByteArray :=
  ⟨#[16, 0, 0, 0, 4, 97, 0, 8, 0, 0, 0, 11, 48, 0, 0, 0]⟩

/-- In an array a failure gets into what is given out. -/
theorem finish_attemptAll_leak :
    (Call.attemptAll leak {}).finish = .ok leakBytes ∧
      Document.decode leakBytes = .error (.malformed .openText) := by
  constructor
  · cbv
  · cbv

end Writer

end DocumentClient
