import DocumentClient.Proofs.Wire.Decoding

/-!
# What can be wrong with a byte string

A reader refuses a call in a phase that the call is not made for, and that is a misuse. Decoding makes its
calls in the phases that they are made for, whatever the bytes are, so all that it can fail with lies in the
bytes: they break the format, end too early, are no text, nest too deep or declare too much.

* `Read.BlamesBytes p r`: if the step fails from the reader, its fault lies in the bytes.

Results:
1. `blamesBytes_take` … `blamesBytes_peekLength`: lengths and texts are taken in every phase.
2. `blamesBytes_beginValue`, `blamesBytes_readType`, `blamesBytes_startContainer`: the steps that look at the
   phase, each where it may be made.
3. `blamesBytes_scalar`, `blamesBytes_documentOf`, `blamesBytes_arrayOf`, `blamesBytes_scopedCodeOf`: values,
   by their kinds.
4. `blamesBytes`: values, fields and items of any depth; induction on the fuel, all three at once.
5. `Document.decode_ok_or_isFormat`: so it is of whole documents.
-/

namespace DocumentClient

open Outcome

namespace Read

variable {α β : Type} {r : Reader} {kind : Kind} {fuel : Nat}

/-- If the step fails from this reader, its fault lies in the bytes. -/
abbrev BlamesBytes (p : Read α) (r : Reader) : Prop :=
  FailsOnly (fun fault : Fault => fault.isFormat = true) p r

/-! ## Steps that do not look at the phase -/

theorem blamesBytes_peek {look : Reader → Except Fault α}
    (h : ∀ fault, look r = .error fault → fault.isFormat = true) : BlamesBytes (peek look) r := by
  intro fault s failed
  unfold peek at failed
  cases found : look r with
  | ok a =>
    rw [found] at failed
    cases failed
  | error e =>
    rw [found] at failed
    cases failed
    exact h fault found

theorem blamesBytes_take (n : Nat) (r : Reader) : BlamesBytes (take n) r := by
  intro fault s failed
  unfold take at failed
  dsimp only at failed
  split at failed
  · cases failed
    rfl
  · split at failed
    · cases failed
      rfl
    · cases failed

theorem blamesBytes_byte (r : Reader) : BlamesBytes byte r :=
  (blamesBytes_take 1 r).bind fun _ _ _ => failsOnly_of_ok rfl

theorem blamesBytes_length (least : Nat) (r : Reader) : BlamesBytes (length least) r :=
  (blamesBytes_take 4 r).bind fun _ _ _ => FailsOnly.guard rfl fun _ => failsOnly_of_ok rfl

theorem blamesBytes_zeroEnded (r : Reader) : BlamesBytes zeroEnded r := by
  intro fault s failed
  unfold zeroEnded at failed
  dsimp only at failed
  split at failed
  · cases failed
    rfl
  · split at failed
    · cases failed
      rfl
    · split at failed
      · cases failed
      · cases failed
        rfl

theorem blamesBytes_text (r : Reader) : BlamesBytes text r := by
  refine (blamesBytes_length 1 r).bind fun n s _ => (blamesBytes_take n s).bind fun bytes t _ => ?_
  refine FailsOnly.guard rfl fun _ => ?_
  split
  · exact failsOnly_of_ok rfl
  · exact failsOnly_throw rfl

theorem blamesBytes_peekLength (r : Reader) : BlamesBytes peekLength r := by
  refine blamesBytes_peek fun fault failed => ?_
  dsimp only at failed
  split at failed
  · cases failed
    rfl
  · split at failed
    · cases failed
      rfl
    · cases failed

/-! ## Steps that look at the phase -/

theorem blamesBytes_currentKind (phase : r.phase = .value) (here : r.kind = some kind) :
    BlamesBytes currentKind r :=
  failsOnly_of_ok ((currentKind_eq_ok_iff phase).mpr ⟨here, rfl⟩)

theorem blamesBytes_expectKind (expected : Kind) (here : r.kind = some kind) :
    BlamesBytes (expectKind expected) r := by
  refine blamesBytes_peek fun fault failed => ?_
  rw [here] at failed
  dsimp only at failed
  split at failed
  · cases failed
  · cases failed
    rfl

theorem blamesBytes_beginValue (expected : Kind) (phase : r.phase = .value) (here : r.kind = some kind) :
    BlamesBytes (beginValue expected) r := by
  unfold beginValue
  refine (failsOnly_of_ok rfl).bind ?_
  rintro _ _ ⟨⟩
  rw [phase]
  exact blamesBytes_expectKind expected here

/-- Behind the check of its kind, the rest of a value may be read anywhere. -/
theorem blamesBytes_value {p : Read α} {expected : Kind} (phase : r.phase = .value)
    (here : r.kind = some kind) (rest : ∀ s, BlamesBytes p s) :
    BlamesBytes (beginValue expected >>= fun _ => p) r :=
  (blamesBytes_beginValue expected phase here).bind fun _ s _ => rest s

theorem blamesBytes_readType (phase : r.phase = .type) (inside : r.frames ≠ []) :
    BlamesBytes readType r := by
  obtain ⟨f, outer, frames⟩ := List.exists_cons_of_ne_nil inside
  unfold readType
  refine (failsOnly_of_ok rfl).bind ?_
  rintro _ _ ⟨⟩
  dsimp only
  rw [if_neg (not_not.mpr phase)]
  have innermost : frame r = .ok f r := frame_eq_ok_iff.mpr ⟨by rw [frames]; rfl, rfl⟩
  refine (failsOnly_of_ok innermost).bind fun f s _ => ?_
  refine (blamesBytes_byte s).bind fun marker t _ => (failsOnly_of_ok rfl).bind ?_
  rintro _ _ ⟨⟩
  split
  · exact FailsOnly.guard rfl fun _ => failsOnly_of_ok rfl
  · split
    · exact failsOnly_throw rfl
    · exact (blamesBytes_zeroEnded t).bind fun name u _ => failsOnly_of_ok rfl

/-- A document may come first, and any container before a value. -/
theorem blamesBytes_startContainer {container : Container}
    (place : (r.phase = .initial ∧ container = .document) ∨ (r.phase = .value ∧ r.kind = some kind)) :
    BlamesBytes (startContainer container) r := by
  unfold startContainer
  refine (failsOnly_of_ok rfl).bind ?_
  rintro _ _ ⟨⟩
  -- behind the check of the phase come a length and the limits
  have enter : ∀ s, BlamesBytes (do
      if maxNesting ≤ r.depth then throw Fault.nestingTooDeep
      let size ← length minDocumentSize
      if maxDocumentSize < size then throw Fault.documentTooLarge
      if r.limit < r.pos + size then
        throw (Fault.malformed (.containerLength container.kind r.pos size (r.limit - r.pos)))
      modify fun s =>
        { s with frames := ⟨container, r.pos + size⟩ :: s.frames, kind := none, phase := .type } :
      Read Unit) s := by
    intro s
    refine FailsOnly.guard rfl fun _ => (blamesBytes_length _ s).bind fun size t _ => ?_
    exact FailsOnly.guard rfl fun _ => FailsOnly.guard rfl fun _ => failsOnly_of_ok rfl
  rcases place with ⟨phase, rfl⟩ | ⟨phase, here⟩
  · rw [phase]
    dsimp only
    exact enter r
  · rw [phase]
    dsimp only
    exact (blamesBytes_expectKind _ here).bind fun _ s _ => enter s

theorem blamesBytes_endDocument (phase : r.phase = .endOfDocument) : BlamesBytes endDocument r :=
  failsOnly_of_ok (endDocument_eq_ok_iff (u := ()).mpr ⟨phase, rfl⟩)

theorem blamesBytes_endArray (phase : r.phase = .endOfArray) : BlamesBytes endArray r :=
  failsOnly_of_ok (endArray_eq_ok_iff (u := ()).mpr ⟨phase, rfl⟩)

/-! ## Values -/

theorem blamesBytes_fixed {expected : Kind} {size : Nat} {decode : ByteArray → α}
    (phase : r.phase = .value) (here : r.kind = some kind) : BlamesBytes (fixed expected size decode) r :=
  blamesBytes_value phase here fun s => (blamesBytes_take size s).bind fun _ _ _ => failsOnly_of_ok rfl

theorem blamesBytes_unit {expected : Kind} (phase : r.phase = .value) (here : r.kind = some kind) :
    BlamesBytes (unit expected) r :=
  blamesBytes_value phase here fun _ => failsOnly_of_ok rfl

theorem blamesBytes_textOf {expected : Kind} (phase : r.phase = .value) (here : r.kind = some kind) :
    BlamesBytes (textOf expected) r :=
  blamesBytes_value phase here fun s => (blamesBytes_text s).bind fun _ _ _ => failsOnly_of_ok rfl

theorem blamesBytes_binary (phase : r.phase = .value) (here : r.kind = some kind) :
    BlamesBytes binary r := by
  refine blamesBytes_value phase here fun s => (blamesBytes_length 0 s).bind fun outer t _ => ?_
  refine (blamesBytes_byte t).bind fun b u _ => ?_
  dsimp only
  split
  · refine (blamesBytes_length 0 u).bind fun inner w _ => FailsOnly.guard rfl fun _ => ?_
    exact (blamesBytes_take inner w).bind fun _ _ _ => failsOnly_of_ok rfl
  · exact (blamesBytes_take outer u).bind fun _ _ _ => failsOnly_of_ok rfl

theorem blamesBytes_boolean (phase : r.phase = .value) (here : r.kind = some kind) :
    BlamesBytes boolean r := by
  refine blamesBytes_value phase here fun s => (blamesBytes_byte s).bind fun b t _ => ?_
  split
  · exact failsOnly_of_ok rfl
  · split
    · exact failsOnly_of_ok rfl
    · exact failsOnly_throw rfl

theorem blamesBytes_regularExpression (phase : r.phase = .value) (here : r.kind = some kind) :
    BlamesBytes regularExpression r :=
  blamesBytes_value phase here fun s => (blamesBytes_zeroEnded s).bind fun _ t _ =>
    (blamesBytes_zeroEnded t).bind fun _ _ _ => failsOnly_of_ok rfl

theorem blamesBytes_dbPointer (phase : r.phase = .value) (here : r.kind = some kind) :
    BlamesBytes dbPointer r :=
  blamesBytes_value phase here fun s => (blamesBytes_text s).bind fun _ t _ =>
    (blamesBytes_take 12 t).bind fun _ _ _ => failsOnly_of_ok rfl

/-- A value that has been read is wrapped without fail. -/
theorem BlamesBytes.wrap {p : Read α} {f : α → Read β} {g : α → β} (read : BlamesBytes p r)
    (wraps : ∀ a, f a = pure (g a)) : BlamesBytes (p >>= f) r := by
  refine FailsOnly.bind read fun a s _ => ?_
  rw [wraps]
  exact failsOnly_of_ok rfl

theorem blamesBytes_scalar (phase : r.phase = .value) (here : r.kind = some kind)
    (flat : ¬ kind.IsFramed) : BlamesBytes (scalar kind) r := by
  simp only [Kind.IsFramed, not_or] at flat
  cases kind with
  | document => exact absurd rfl flat.1
  | array => exact absurd rfl flat.2.1
  | javaScriptWithScope => exact absurd rfl flat.2.2
  | double | objectId | dateTime | int32 | timestamp | int64 | decimal128 =>
    exact (blamesBytes_fixed phase here).wrap fun _ => rfl
  | string | javaScript | symbol => exact (blamesBytes_textOf phase here).wrap fun _ => rfl
  | undefined | null | minKey | maxKey => exact (blamesBytes_unit phase here).wrap fun _ => rfl
  | binary => exact (blamesBytes_binary phase here).wrap fun _ => rfl
  | boolean => exact (blamesBytes_boolean phase here).wrap fun _ => rfl
  | regularExpression => exact (blamesBytes_regularExpression phase here).wrap fun _ => rfl
  | dbPointer => exact (blamesBytes_dbPointer phase here).wrap fun _ => rfl

/-- Fields, wherever a document has been entered. -/
def FieldsBlame (fuel : Nat) : Prop :=
  ∀ {m : Reader} (doc : Document), m.phase = .type → m.frames ≠ [] → BlamesBytes (fieldsWithin fuel doc) m

/-- Items, wherever an array has been entered. -/
def ItemsBlame (fuel : Nat) : Prop :=
  ∀ {m : Reader} (items : Array Value), m.phase = .type → m.frames ≠ [] →
    BlamesBytes (itemsWithin fuel items) m

/-- A value, wherever its kind is known. -/
def ValueBlames (fuel : Nat) : Prop :=
  ∀ {r : Reader} {kind : Kind}, r.phase = .value → r.kind = some kind → r.frames ≠ [] → r.Ahead [] →
    BlamesBytes (valueWithin fuel) r

theorem blamesBytes_documentOf (fields : FieldsBlame fuel)
    (place : r.phase = .initial ∨ (r.phase = .value ∧ r.kind = some kind)) :
    BlamesBytes (documentOf (fieldsWithin fuel)) r := by
  refine (blamesBytes_startContainer (place.imp_left fun phase => ⟨phase, rfl⟩)).bind fun _ m start => ?_
  obtain ⟨-, -, -, n, -, -, -, -, -, rfl⟩ := startContainer_eq_ok_iff.mp start
  refine (fields .empty rfl (List.cons_ne_nil _ _)).bind fun doc m' read => ?_
  -- the fields end behind the terminator of a document, where the document may be left
  obtain ⟨elements, name, -, -, rfl⟩ := (sound fuel).2.1 rfl rfl read
  exact (blamesBytes_endDocument rfl).bind fun _ _ _ => failsOnly_of_ok rfl

/-- A document that is read from the front has no kind yet. -/
theorem blamesBytes_documentOf_of_initial (fields : FieldsBlame fuel) (phase : r.phase = .initial) :
    BlamesBytes (documentOf (fieldsWithin fuel)) r := by
  have place : r.phase = .initial ∨ (r.phase = .value ∧ r.kind = some .document) := .inl phase
  exact blamesBytes_documentOf fields place

theorem blamesBytes_arrayOf (items : ItemsBlame fuel) (phase : r.phase = .value)
    (here : r.kind = some kind) : BlamesBytes (arrayOf (itemsWithin fuel)) r := by
  refine (blamesBytes_startContainer (.inr ⟨phase, here⟩)).bind fun _ m start => ?_
  obtain ⟨-, -, -, n, -, -, -, -, -, rfl⟩ := startContainer_eq_ok_iff.mp start
  refine (items #[] rfl (List.cons_ne_nil _ _)).bind fun values m' read => ?_
  obtain ⟨elements, name, -, -, rfl⟩ := (sound fuel).2.2 rfl rfl read
  exact (blamesBytes_endArray rfl).bind fun _ _ _ => failsOnly_of_ok rfl

/-- The scope is read as a document of its own, by a reader that stands at the front. -/
theorem blamesBytes_scopedCodeOf (fields : FieldsBlame fuel) (phase : r.phase = .value)
    (here : r.kind = some kind) : BlamesBytes (scopedCodeOf (fieldsWithin fuel)) r := by
  refine blamesBytes_value phase here fun s => FailsOnly.bind (x := get) (failsOnly_of_ok rfl) fun _ t _ => ?_
  refine (blamesBytes_length 4 t).bind fun total u _ => (blamesBytes_text u).bind fun code u _ => ?_
  refine (blamesBytes_peekLength u).bind fun n u _ => (blamesBytes_take n u).bind fun bytes u _ => ?_
  refine FailsOnly.bind (x := get) (failsOnly_of_ok rfl) fun _ _ _ => ?_
  split
  · next fault _ failed =>
    exact failsOnly_throw (blamesBytes_documentOf_of_initial fields rfl fault _ failed)
  · exact FailsOnly.guard rfl fun _ => failsOnly_of_ok rfl

theorem valueBlames_succ (fields : FieldsBlame fuel) (items : ItemsBlame fuel) :
    ValueBlames (fuel + 1) := by
  intro r kind phase here inside room
  rw [valueWithin_eq]
  refine (blamesBytes_currentKind phase here).bind fun found s next => ?_
  obtain ⟨same, rfl⟩ := (currentKind_eq_ok_iff phase).mp next
  obtain rfl : kind = found := Option.some.inj (here.symm.trans same)
  by_cases framed : kind.IsFramed
  · rcases framed with rfl | rfl | rfl
    · exact (blamesBytes_documentOf fields (.inr ⟨phase, here⟩)).wrap fun _ => rfl
    · exact (blamesBytes_arrayOf items phase here).wrap fun _ => rfl
    · exact (blamesBytes_scopedCodeOf fields phase here).wrap fun _ => rfl
  · have flat := blamesBytes_scalar phase here framed
    simp only [Kind.IsFramed, not_or] at framed
    cases kind with
    | document => exact absurd rfl framed.1
    | array => exact absurd rfl framed.2.1
    | javaScriptWithScope => exact absurd rfl framed.2.2
    | _ => exact flat

/-- Behind the tag and the name of an element its value may be read. -/
theorem blamesBytes_element (value : ValueBlames fuel) {m : Reader} (label : String)
    (phase : m.phase = .type) (inside : m.frames ≠ []) (read : readType m = .ok (some kind) r) :
    BlamesBytes (valueWithin fuel) (r.named label) ∧ ∀ v s, valueWithin fuel (r.named label) = .ok v s →
      s.phase = .type ∧ s.frames ≠ [] := by
  obtain ⟨f, outer, frames⟩ := List.exists_cons_of_ne_nil inside
  rcases (readType_eq_ok_iff phase frames).mp read with ⟨absent, -⟩ | ⟨_, name, same, -, ahead, rfl⟩
  · cases absent
  · cases same
    have room : ((m.atValue (Grammar.header kind name).length kind name).named label).Ahead [] :=
      ahead.rest.transfer rfl rfl ahead.inside
    refine ⟨value rfl rfl inside room, fun v s hv => ?_⟩
    have values : ValueSound fuel := (sound fuel).1
    obtain ⟨bs, _, -, -, -, rfl⟩ := values
      (r := (m.atValue (Grammar.header kind name).length kind name).named label) rfl inside room hv
    exact ⟨rfl, inside⟩

theorem fieldsBlame_succ (value : ValueBlames fuel) (fields : FieldsBlame fuel) :
    FieldsBlame (fuel + 1) := by
  intro m doc phase inside
  rw [fieldsWithin]
  refine (blamesBytes_readType phase inside).bind fun next s read => ?_
  cases next with
  | none => exact failsOnly_of_ok rfl
  | some kind =>
    -- fields take the name out of the reader before the value is read
    obtain ⟨reads, lands⟩ := blamesBytes_element value "" phase inside read
    refine (failsOnly_of_ok rfl).bind ?_
    rintro _ _ ⟨⟩
    refine FailsOnly.bind reads fun v t hv => ?_
    obtain ⟨phase', inside'⟩ := lands v t hv
    exact fields _ phase' inside'

theorem itemsBlame_succ (value : ValueBlames fuel) (items : ItemsBlame fuel) :
    ItemsBlame (fuel + 1) := by
  intro m found phase inside
  rw [itemsWithin]
  refine (blamesBytes_readType phase inside).bind fun next s read => ?_
  cases next with
  | none => exact failsOnly_of_ok rfl
  | some kind =>
    obtain ⟨reads, lands⟩ := blamesBytes_element value s.name phase inside read
    refine FailsOnly.bind reads fun v t hv => ?_
    obtain ⟨phase', inside'⟩ := lands v t hv
    exact items _ phase' inside'

/-- Values, fields and items fail for faults of the bytes only, whatever the bound on their depth. -/
theorem blamesBytes (fuel : Nat) : ValueBlames fuel ∧ FieldsBlame fuel ∧ ItemsBlame fuel := by
  induction fuel with
  | zero =>
    refine ⟨?_, ?_, ?_⟩
    · intro r kind _ _ _ _
      rw [valueWithin]
      exact failsOnly_throw rfl
    · intro m doc _ _
      rw [fieldsWithin]
      exact failsOnly_throw rfl
    · intro m items _ _
      rw [itemsWithin]
      exact failsOnly_throw rfl
  | succ fuel ih =>
    obtain ⟨value, fields, items⟩ := ih
    exact ⟨valueBlames_succ fields items, fieldsBlame_succ value fields, itemsBlame_succ value items⟩

end Read

namespace Document

/-- A byte string is a document, or what is wrong lies in its bytes: no call of the decoder is one that the
reader refuses, and no value lacks a form. The bound on the recursion hides no such call, since no other bound
brings one to light. -/
theorem decode_ok_or_isFormat (data : ByteArray) :
    ((∃ doc, decode data = .ok doc) ∨ ∃ fault, decode data = .error fault ∧ fault.isFormat = true) ∧
      ∀ bound,
        (∃ doc r, Read.documentOf (Read.fieldsWithin bound) (.ofBytes data) = .ok doc r) ∨
          ∃ fault r, Read.documentOf (Read.fieldsWithin bound) (.ofBytes data) = .error fault r ∧
            fault.isFormat = true := by
  have whole (bound : Nat) := Read.blamesBytes_documentOf_of_initial (r := .ofBytes data)
    (Read.blamesBytes bound).2.1 rfl
  constructor
  · unfold decode
    cases read : Read.document (.ofBytes data) with
    | error fault r => exact .inr ⟨fault, rfl, whole _ fault r read⟩
    | ok doc r =>
      dsimp only
      split
      · exact .inr ⟨_, rfl, rfl⟩
      · exact .inl ⟨doc, rfl⟩
  · intro bound
    cases read : Read.documentOf (Read.fieldsWithin bound) (.ofBytes data) with
    | error fault r => exact .inr ⟨fault, r, rfl, whole bound fault r read⟩
    | ok doc r => exact .inl ⟨doc, r, rfl⟩

end Document

end DocumentClient
