import DocumentClient.Proofs.Typed.Geo
import DocumentClient.Proofs.Wire.Malformation
import DocumentClient.Typed.Coding

/-!
# Faults that are no registry's

A codec can fail for what it reads or writes, and it can fail because the registry has no answer for a part of
its value. The two are told apart by the fault: nothing that a reader or a writer is asked to do, in whatever
state it is, ends with a fault of a lookup.

* `Fault.isLookup`: the faults of a lookup.
* `AsksNothing x`: whatever state it starts from, the step ends with none of them.

Results:
1. `AsksNothing.bind` … `AsksNothing.map`: sequences and choices of such steps.
2. `Read.asksNothing_value`, `Read.asksNothing_document`: reading, by induction on the bound of the recursion;
   then the typed values.
3. `Write.asksNothing_value`: writing, by induction on the value.
-/

namespace DocumentClient

open Outcome

namespace Fault

/-- The faults that looking up a codec may end with. -/
def isLookup : Fault → Bool
  | misuse (.unregistered _) | misuse (.wrongInstance _) => true
  | _ => false

theorem isLookup_of_isFormat {fault : Fault} (h : fault.isFormat = true) : fault.isLookup = false := by
  cases fault with
  | misuse cause => cases h
  | _ => rfl

end Fault

variable {σ α β : Type}

/-- However the step ends, it does not end with a fault of a lookup. -/
def AsksNothing (x : EStateM Fault σ α) : Prop :=
  ∀ s, FailsOnly (fun fault => fault.isLookup = false) x s

/-! ## Sequences and choices -/

section Sequences

variable {x y : EStateM Fault σ α} {f : α → EStateM Fault σ β}

theorem asksNothing_pure (a : α) : AsksNothing (pure a : EStateM Fault σ α) :=
  fun _ => failsOnly_of_ok rfl

theorem asksNothing_get : AsksNothing (get : EStateM Fault σ σ) :=
  fun _ => failsOnly_of_ok rfl

theorem asksNothing_set (s : σ) : AsksNothing (set s : EStateM Fault σ PUnit) :=
  fun _ => failsOnly_of_ok rfl

theorem asksNothing_modify (g : σ → σ) : AsksNothing (modify g : EStateM Fault σ PUnit) :=
  fun _ => failsOnly_of_ok rfl

theorem asksNothing_throw {fault : Fault} (h : fault.isLookup = false) :
    AsksNothing (throw fault : EStateM Fault σ α) :=
  fun _ => failsOnly_throw h

theorem AsksNothing.bind (first : AsksNothing x) (rest : ∀ a, AsksNothing (f a)) : AsksNothing (x >>= f) :=
  fun s => (first s).bind fun a t _ => rest a t

theorem AsksNothing.ite {c : Prop} [Decidable c] (hx : AsksNothing x) (hy : AsksNothing y) :
    AsksNothing (if c then x else y) := by
  split
  · exact hx
  · exact hy

theorem AsksNothing.guard {c : Prop} [Decidable c] {fault : Fault} {g : PUnit → EStateM Fault σ α}
    (thrown : fault.isLookup = false) (pass : AsksNothing x) :
    AsksNothing (if c then throw fault >>= g else x) :=
  fun s => .guard thrown fun _ => pass s

/-- A step whose result is handed on as it is, or changed without fail. -/
theorem AsksNothing.map {g : α → β} (first : AsksNothing x) : AsksNothing (x >>= fun a => pure (g a)) :=
  first.bind fun a => asksNothing_pure (g a)

end Sequences

/-! ## Reading -/

namespace Read

variable {kind : Kind} {fuel : Nat}

/-- What lies in the bytes does not lie in a registry. -/
theorem asksNothing_of_blamesBytes {p : Read α} (h : ∀ r, BlamesBytes p r) : AsksNothing p :=
  fun r fault s failed => Fault.isLookup_of_isFormat (h r fault s failed)

theorem asksNothing_peek {look : Reader → Except Fault α}
    (h : ∀ r fault, look r = .error fault → fault.isLookup = false) : AsksNothing (peek look) := by
  intro r fault s failed
  unfold peek at failed
  cases found : look r with
  | ok a =>
    rw [found] at failed
    cases failed
  | error e =>
    rw [found] at failed
    cases failed
    exact h r fault found

theorem asksNothing_take (n : Nat) : AsksNothing (take n) :=
  asksNothing_of_blamesBytes (blamesBytes_take n)

theorem asksNothing_byte : AsksNothing byte :=
  asksNothing_of_blamesBytes blamesBytes_byte

theorem asksNothing_length (least : Nat) : AsksNothing (length least) :=
  asksNothing_of_blamesBytes (blamesBytes_length least)

theorem asksNothing_zeroEnded : AsksNothing zeroEnded :=
  asksNothing_of_blamesBytes blamesBytes_zeroEnded

theorem asksNothing_text : AsksNothing text :=
  asksNothing_of_blamesBytes blamesBytes_text

theorem asksNothing_peekLength : AsksNothing peekLength :=
  asksNothing_of_blamesBytes blamesBytes_peekLength

/-! ### Steps that look at the phase -/

theorem asksNothing_currentKind : AsksNothing currentKind := by
  refine asksNothing_peek fun r fault failed => ?_
  unfold Reader.currentKind at failed
  split at failed
  · cases failed
  · split at failed
    · cases failed
    · cases failed
      rfl
  · cases failed
    rfl

theorem asksNothing_frame : AsksNothing frame := by
  refine asksNothing_peek fun r fault failed => ?_
  split at failed
  · cases failed
    rfl
  · cases failed

theorem asksNothing_expectKind (expected : Kind) : AsksNothing (expectKind expected) := by
  refine asksNothing_peek fun r fault failed => ?_
  split at failed
  · cases failed
    rfl
  · split at failed
    · cases failed
    · cases failed
      rfl

theorem asksNothing_readType : AsksNothing readType := by
  refine asksNothing_get.bind fun _ => .guard rfl (asksNothing_frame.bind fun _ => ?_)
  refine asksNothing_byte.bind fun _ => asksNothing_get.bind fun _ => .ite ?_ ?_
  · exact .guard rfl ((asksNothing_modify _).map)
  · split
    · exact asksNothing_throw rfl
    · exact asksNothing_zeroEnded.bind fun _ => (asksNothing_modify _).map

theorem asksNothing_beginValue (expected : Kind) : AsksNothing (beginValue expected) :=
  asksNothing_get.bind fun _ => .guard rfl (asksNothing_expectKind expected)

theorem asksNothing_endValue : AsksNothing endValue :=
  asksNothing_modify _

theorem asksNothing_startContainer (container : Container) : AsksNothing (startContainer container) := by
  -- behind the check of the phase come a length and the limits
  have enter (r : Reader) : AsksNothing (do
      if maxNesting ≤ r.depth then throw Fault.nestingTooDeep
      let size ← length minDocumentSize
      if maxDocumentSize < size then throw Fault.documentTooLarge
      if r.limit < r.pos + size then
        throw (Fault.malformed (.containerLength container.kind r.pos size (r.limit - r.pos)))
      modify fun s =>
        { s with frames := ⟨container, r.pos + size⟩ :: s.frames, kind := none, phase := .type } : Read Unit) :=
    .guard rfl ((asksNothing_length _).bind fun _ => .guard rfl (.guard rfl (asksNothing_modify _)))
  refine asksNothing_get.bind fun r => ?_
  dsimp only
  split
  · exact .guard rfl (enter r)
  · exact (asksNothing_expectKind _).bind fun _ => enter r
  · exact (asksNothing_throw rfl).bind fun _ => enter r

theorem asksNothing_startDocument : AsksNothing startDocument :=
  asksNothing_startContainer _

theorem asksNothing_startArray : AsksNothing startArray :=
  asksNothing_startContainer _

theorem asksNothing_endDocument : AsksNothing endDocument :=
  asksNothing_get.bind fun _ => .guard rfl (asksNothing_modify _)

theorem asksNothing_endArray : AsksNothing endArray :=
  asksNothing_get.bind fun _ => .guard rfl (asksNothing_modify _)

/-! ### Passing over values -/

theorem asksNothing_valueSize (kind : Kind) : AsksNothing (valueSize kind) := by
  unfold valueSize
  split
  · exact asksNothing_pure _
  · split
    · exact asksNothing_peekLength
    · exact asksNothing_peekLength
    · exact asksNothing_peekLength
    · exact asksNothing_peekLength.map
    · exact asksNothing_peekLength.map
    · exact asksNothing_zeroEnded.map.bind fun _ => asksNothing_zeroEnded.map.map
    · exact asksNothing_peekLength.map

theorem asksNothing_skipValue : AsksNothing skipValue :=
  asksNothing_currentKind.bind fun kind => asksNothing_get.bind fun _ => .guard rfl
    ((asksNothing_valueSize kind).bind fun n => (asksNothing_take n).map.bind fun _ => asksNothing_endValue)

theorem asksNothing_findElement (name : String) : AsksNothing (findElement name) := by
  have within (fuel : Nat) : AsksNothing (findWithin name fuel) := by
    induction fuel with
    | zero => exact asksNothing_throw rfl
    | succ fuel ih =>
      refine asksNothing_readType.bind fun next => ?_
      cases next with
      | none => exact asksNothing_pure _
      | some kind =>
        refine asksNothing_get.bind fun _ => ?_
        exact .ite (asksNothing_pure _) (asksNothing_skipValue.bind fun _ => ih)
  exact fun r => within _ r

theorem asksNothing_foldElements {step : α → String → Read α} (steps : ∀ a name, AsksNothing (step a name))
    (start : α) : AsksNothing (foldElements step start) := by
  have within (fuel : Nat) : ∀ a, AsksNothing (foldWithin step fuel a) := by
    induction fuel with
    | zero => exact fun _ => asksNothing_throw rfl
    | succ fuel ih =>
      refine fun a => asksNothing_readType.bind fun next => ?_
      cases next with
      | none => exact asksNothing_pure _
      | some kind => exact asksNothing_get.bind fun _ => (steps _ _).bind fun b => ih b
  exact fun r => within _ start r

/-! ### Values -/

theorem asksNothing_fixed (kind : Kind) (size : Nat) (decode : ByteArray → α) :
    AsksNothing (fixed kind size decode) :=
  (asksNothing_beginValue kind).bind fun _ => (asksNothing_take size).bind fun _ => asksNothing_endValue.map

theorem asksNothing_unit (kind : Kind) : AsksNothing (unit kind) :=
  (asksNothing_beginValue kind).bind fun _ => asksNothing_endValue

theorem asksNothing_textOf (kind : Kind) : AsksNothing (textOf kind) :=
  (asksNothing_beginValue kind).bind fun _ => asksNothing_text.bind fun _ => asksNothing_endValue.map

theorem asksNothing_binary : AsksNothing binary := by
  refine (asksNothing_beginValue _).bind fun _ => (asksNothing_length 0).bind fun outer => ?_
  refine asksNothing_byte.bind fun _ => .ite ?_ ?_
  · refine (asksNothing_length 0).bind fun inner => .guard rfl ?_
    exact (asksNothing_take inner).bind fun _ => asksNothing_endValue.map
  · exact (asksNothing_take outer).bind fun _ => asksNothing_endValue.map

theorem asksNothing_boolean : AsksNothing boolean :=
  (asksNothing_beginValue _).bind fun _ => asksNothing_byte.bind fun _ =>
    .ite asksNothing_endValue.map (.ite asksNothing_endValue.map (asksNothing_throw rfl))

theorem asksNothing_regularExpression : AsksNothing regularExpression :=
  (asksNothing_beginValue _).bind fun _ => asksNothing_zeroEnded.bind fun _ =>
    asksNothing_zeroEnded.bind fun _ => asksNothing_endValue.map

theorem asksNothing_dbPointer : AsksNothing dbPointer :=
  (asksNothing_beginValue _).bind fun _ => asksNothing_text.bind fun _ =>
    (asksNothing_take 12).bind fun _ => asksNothing_endValue.map

theorem asksNothing_documentOf {fields : Document → Read Document} (h : ∀ doc, AsksNothing (fields doc)) :
    AsksNothing (documentOf fields) :=
  asksNothing_startDocument.bind fun _ => (h .empty).bind fun _ => asksNothing_endDocument.map

theorem asksNothing_arrayOf {items : Array Value → Read (Array Value)} (h : ∀ xs, AsksNothing (items xs)) :
    AsksNothing (arrayOf items) :=
  asksNothing_startArray.bind fun _ => (h #[]).bind fun _ => asksNothing_endArray.map

/-- The reader of the scope fails in no other way than one that reads a document. -/
theorem asksNothing_scopedCodeOf {fields : Document → Read Document} (h : ∀ doc, AsksNothing (fields doc)) :
    AsksNothing (scopedCodeOf fields) := by
  refine (asksNothing_beginValue _).bind fun _ => asksNothing_get.bind fun _ => ?_
  refine (asksNothing_length 4).bind fun _ => asksNothing_text.bind fun _ => ?_
  refine asksNothing_peekLength.bind fun n => (asksNothing_take n).bind fun bytes => ?_
  refine asksNothing_get.bind fun r => ?_
  split
  · next fault _ failed => exact asksNothing_throw (asksNothing_documentOf h _ fault _ failed)
  · exact .guard rfl asksNothing_endValue.map

theorem asksNothing_takeName : AsksNothing takeName :=
  asksNothing_get.bind fun _ => (asksNothing_modify _).map

/-- Values, fields and items, whatever the bound on their depth. -/
theorem asksNothing_within (fuel : Nat) :
    AsksNothing (valueWithin fuel) ∧ (∀ doc, AsksNothing (fieldsWithin fuel doc)) ∧
      ∀ xs, AsksNothing (itemsWithin fuel xs) := by
  induction fuel with
  | zero =>
    refine ⟨?_, fun doc => ?_, fun xs => ?_⟩
    · rw [valueWithin]
      exact asksNothing_throw rfl
    · rw [fieldsWithin]
      exact asksNothing_throw rfl
    · rw [itemsWithin]
      exact asksNothing_throw rfl
  | succ fuel ih =>
    obtain ⟨value, fields, items⟩ := ih
    refine ⟨?_, fun doc => ?_, fun xs => ?_⟩
    · rw [valueWithin]
      refine asksNothing_currentKind.bind fun kind => ?_
      cases kind with
      | document => exact (asksNothing_documentOf fields).map
      | array => exact (asksNothing_arrayOf items).map
      | javaScriptWithScope => exact (asksNothing_scopedCodeOf fields).map
      | double | objectId | dateTime | int32 | timestamp | int64 | decimal128 =>
        exact (asksNothing_fixed _ _ _).map
      | string | javaScript | symbol => exact (asksNothing_textOf _).map
      | undefined | null | minKey | maxKey => exact (asksNothing_unit _).map
      | binary => exact asksNothing_binary.map
      | boolean => exact asksNothing_boolean.map
      | regularExpression => exact asksNothing_regularExpression.map
      | dbPointer => exact asksNothing_dbPointer.map
    · rw [fieldsWithin]
      refine asksNothing_readType.bind fun next => ?_
      cases next with
      | none => exact asksNothing_pure _
      | some kind => exact asksNothing_takeName.bind fun _ => value.bind fun _ => fields _
    · rw [itemsWithin]
      refine asksNothing_readType.bind fun next => ?_
      cases next with
      | none => exact asksNothing_pure _
      | some kind => exact value.bind fun _ => items _

theorem asksNothing_value : AsksNothing value :=
  fun r => (asksNothing_within _).1 r

theorem asksNothing_document : AsksNothing document :=
  fun r => asksNothing_documentOf (asksNothing_within _).2.1 r

/-! ### Typed values -/

theorem asksNothing_ofExcept {result : Except Fault α}
    (h : ∀ fault, result = .error fault → fault.isLookup = false) : AsksNothing (ofExcept result) :=
  asksNothing_peek fun _ => h

/-- A refused conversion is no refused lookup. -/
theorem asksNothing_converted (result : Except Number.ConversionFault α) :
    AsksNothing (ofExcept (converted result)) := by
  refine asksNothing_ofExcept fun fault failed => ?_
  cases result with
  | ok a => cases failed
  | error cause =>
    cases failed
    rfl

theorem asksNothing_narrowByte (kind : Kind) (n : Int) : AsksNothing (ofExcept (narrowByte kind n)) := by
  refine asksNothing_ofExcept fun fault failed => ?_
  unfold narrowByte at failed
  split at failed
  · cases failed
  · cases failed
    rfl

theorem isLookup_of_byteOfText {text : String} {fault : Fault} (h : byteOfText text = .error fault) :
    fault.isLookup = false := by
  unfold byteOfText at h
  generalize Bytes.ofHex _ = found at h
  match found with
  | .error _ | .ok ⟨⟨[]⟩⟩ | .ok ⟨⟨_ :: _ :: _⟩⟩ =>
    cases h
    rfl
  | .ok ⟨⟨[_]⟩⟩ => cases h

theorem isLookup_of_wordOfText {text : String} {fault : Fault} (h : wordOfText text = .error fault) :
    fault.isLookup = false := by
  unfold wordOfText at h
  split at h
  · cases h
  · cases h
    rfl

theorem asksNothing_uint8 : AsksNothing uint8 := by
  refine asksNothing_currentKind.bind fun kind => ?_
  cases kind with
  | binary =>
    refine asksNothing_binary.bind fun data => ?_
    obtain ⟨_, ⟨⟨bytes⟩⟩⟩ := data
    match bytes with
    | [] => exact asksNothing_throw rfl
    | [_] => exact asksNothing_pure _
    | _ :: _ :: _ => exact asksNothing_throw rfl
  | int32 => exact (asksNothing_fixed _ _ _).bind fun _ => asksNothing_narrowByte _ _
  | int64 => exact (asksNothing_fixed _ _ _).bind fun _ => asksNothing_narrowByte _ _
  | string =>
    exact (asksNothing_textOf _).bind fun _ => asksNothing_ofExcept fun _ => isLookup_of_byteOfText
  | _ => exact asksNothing_throw rfl

theorem asksNothing_uint32 (policy : Number.Conversion) : AsksNothing (uint32 policy) := by
  refine asksNothing_currentKind.bind fun kind => ?_
  cases kind with
  | double => exact (asksNothing_fixed _ _ _).bind fun _ => asksNothing_converted _
  | int32 => exact (asksNothing_fixed _ _ _).bind fun _ => asksNothing_converted _
  | int64 => exact (asksNothing_fixed _ _ _).bind fun _ => asksNothing_converted _
  | string =>
    exact (asksNothing_textOf _).bind fun _ => asksNothing_ofExcept fun _ => isLookup_of_wordOfText
  | _ => exact asksNothing_throw rfl

theorem asksNothing_ordinate (what : String) : AsksNothing (ordinate what) := by
  refine asksNothing_readType.bind fun next => ?_
  cases next with
  | none => exact asksNothing_throw rfl
  | some kind => exact asksNothing_fixed _ _ _

theorem asksNothing_pair (what : String) : AsksNothing (pair what) := by
  refine asksNothing_startArray.bind fun _ => (asksNothing_ordinate what).bind fun _ => ?_
  refine (asksNothing_ordinate what).bind fun _ => asksNothing_readType.bind fun next => ?_
  cases next with
  | none => exact asksNothing_endArray.map
  | some kind => exact asksNothing_throw rfl

theorem asksNothing_firstText (seen : Option String) : AsksNothing (firstText seen) := by
  cases seen with
  | none => exact (asksNothing_textOf _).map
  | some text => exact asksNothing_skipValue.map

section Crs

variable {π : Type} {property : π → String → Read π}

theorem asksNothing_crsField (kind : CrsKind) (properties : ∀ p name, AsksNothing (property p name))
    (fields : CrsFields π) (name : String) : AsksNothing (crsField kind property fields name) := by
  refine .ite (.ite asksNothing_skipValue.map ?_) (.ite (.ite asksNothing_skipValue.map ?_) ?_)
  · exact (asksNothing_textOf _).bind fun _ => .guard rfl (asksNothing_pure _)
  · refine asksNothing_startDocument.bind fun _ => (asksNothing_foldElements properties _).bind fun _ => ?_
    exact asksNothing_endDocument.map
  · exact asksNothing_throw rfl

theorem asksNothing_crsOf (kind : CrsKind) (properties : ∀ p name, AsksNothing (property p name)) (start : π) :
    AsksNothing (crsOf kind property start) := by
  refine asksNothing_startDocument.bind fun _ => ?_
  refine (asksNothing_foldElements (asksNothing_crsField kind properties) _).bind fun _ => ?_
  exact asksNothing_endDocument.bind fun _ => .guard rfl (asksNothing_pure _)

end Crs

theorem asksNothing_linkedCrs : AsksNothing linkedCrs := by
  refine (asksNothing_crsOf _ (fun p name => ?_) _).bind fun found => ?_
  · exact .ite (asksNothing_firstText _).map (.ite (asksNothing_firstText _).map (asksNothing_throw rfl))
  · split
    · exact asksNothing_pure _
    · exact asksNothing_throw rfl

theorem asksNothing_namedCrs : AsksNothing namedCrs := by
  refine (asksNothing_crsOf _ (fun p name => ?_) _).bind fun found => ?_
  · exact .ite (asksNothing_firstText _) (asksNothing_throw rfl)
  · cases found with
    | some name => exact asksNothing_pure _
    | none => exact asksNothing_throw rfl

theorem asksNothing_crsKind : AsksNothing crsKind := by
  refine asksNothing_get.map.bind fun _ => asksNothing_startDocument.bind fun _ => ?_
  refine (asksNothing_findElement _).bind fun _ => .guard rfl ((asksNothing_textOf _).bind fun found => ?_)
  refine (asksNothing_modify _).bind fun _ => ?_
  split
  · exact asksNothing_pure _
  · exact asksNothing_throw rfl

theorem asksNothing_readRecord (schema : Schema) : AsksNothing (Codec.readRecord schema) := by
  refine asksNothing_document.bind fun doc => ?_
  split
  · exact asksNothing_pure _
  · exact asksNothing_throw rfl

theorem asksNothing_readNoRecord : AsksNothing Codec.readNoRecord :=
  asksNothing_document.map.bind fun _ => asksNothing_throw rfl

end Read

/-! ## Writing -/

namespace Write

theorem asksNothing_put (bytes : ByteArray) : AsksNothing (put bytes) :=
  asksNothing_modify _

/-- A part of a value that is refused. -/
theorem asksNothing_putPart {part : Except Fault ByteArray}
    (h : ∀ fault, part = .error fault → fault.isLookup = false) : AsksNothing (putPart part) := by
  cases part with
  | ok bytes => exact asksNothing_put bytes
  | error fault => exact asksNothing_throw (h fault rfl)

theorem isLookup_of_lengthBytes {n : Nat} {fault : Fault} (h : lengthBytes n = .error fault) :
    fault.isLookup = false := by
  unfold lengthBytes at h
  split at h
  · cases h
    rfl
  · cases h

theorem isLookup_of_textBytes {text : String} {fault : Fault} (h : textBytes text = .error fault) :
    fault.isLookup = false := by
  rcases exceptBind_eq_error_iff.mp h with failed | ⟨_, -, last⟩
  · exact isLookup_of_lengthBytes failed
  · cases last

theorem isLookup_of_zeroEndedBytes {text : String} {fault : Fault} (h : zeroEndedBytes text = .error fault) :
    fault.isLookup = false := by
  unfold zeroEndedBytes at h
  split at h
  · cases h
    rfl
  · cases h

/-! ### Elements and containers -/

theorem asksNothing_name (text : String) : AsksNothing (name text) :=
  asksNothing_get.bind fun _ => .guard rfl (.guard rfl (.guard rfl (asksNothing_set _)))

theorem asksNothing_beginValue (kind : Kind) : AsksNothing (beginValue kind) := by
  refine asksNothing_get.bind fun w => ?_
  split
  · split
    · exact asksNothing_throw rfl
    · exact (asksNothing_set _).bind fun _ => asksNothing_put _
  · exact (asksNothing_set _).bind fun _ => asksNothing_put _
  · exact asksNothing_throw rfl

theorem asksNothing_endValue : AsksNothing endValue :=
  asksNothing_modify _

theorem asksNothing_openContainer (nextIndex : Option Nat) : AsksNothing (openContainer nextIndex) :=
  asksNothing_get.bind fun _ => .guard rfl (asksNothing_set _)

theorem asksNothing_startDocument : AsksNothing startDocument :=
  asksNothing_get.bind fun _ =>
    .ite ((asksNothing_beginValue _).bind fun _ => asksNothing_openContainer _) (asksNothing_openContainer _)

theorem asksNothing_startArray : AsksNothing startArray :=
  (asksNothing_beginValue _).bind fun _ => asksNothing_openContainer _

theorem asksNothing_closeContainer : AsksNothing closeContainer := by
  refine asksNothing_get.bind fun w => ?_
  split
  · exact asksNothing_throw rfl
  · refine (asksNothing_set _).bind fun _ => ?_
    dsimp only
    split
    · next fault failed =>
      exact (asksNothing_put _).bind fun _ => asksNothing_throw (isLookup_of_lengthBytes failed)
    · exact (asksNothing_put _).bind fun _ => asksNothing_modify _

theorem asksNothing_endDocument : AsksNothing endDocument :=
  asksNothing_get.bind fun _ => .guard rfl asksNothing_closeContainer

theorem asksNothing_endArray : AsksNothing endArray :=
  asksNothing_get.bind fun _ => .guard rfl asksNothing_closeContainer

/-! ### Values -/

theorem asksNothing_scalar {part : Except Fault ByteArray} (kind : Kind)
    (h : ∀ fault, part = .error fault → fault.isLookup = false) : AsksNothing (scalar kind part) :=
  (asksNothing_beginValue kind).bind fun _ => (asksNothing_putPart h).bind fun _ => asksNothing_endValue

theorem asksNothing_fixed (kind : Kind) (bytes : ByteArray) : AsksNothing (scalar kind (.ok bytes)) :=
  asksNothing_scalar kind nofun

theorem asksNothing_textOf (kind : Kind) (text : String) : AsksNothing (scalar kind (textBytes text)) :=
  asksNothing_scalar kind fun _ => isLookup_of_textBytes

theorem asksNothing_binary (data : Binary) : AsksNothing (binary data) := by
  have length (n : Nat) : AsksNothing (putPart (lengthBytes n)) :=
    asksNothing_putPart fun _ => isLookup_of_lengthBytes
  have body : AsksNothing (do put data.bytes; endValue) :=
    (asksNothing_put _).bind fun _ => asksNothing_endValue
  refine (asksNothing_beginValue _).bind fun _ => .ite ?_ ?_
  · exact (length _).bind fun _ => (asksNothing_put _).bind fun _ => (length _).bind fun _ => body
  · exact (length _).bind fun _ => (asksNothing_put _).bind fun _ => body

theorem asksNothing_regularExpression (pattern options : String) :
    AsksNothing (regularExpression pattern options) :=
  (asksNothing_beginValue _).bind fun _ => (asksNothing_putPart fun _ => isLookup_of_zeroEndedBytes).bind fun _ =>
    (asksNothing_putPart fun _ => isLookup_of_zeroEndedBytes).bind fun _ => asksNothing_endValue

theorem asksNothing_dbPointer (collection : String) (id : ObjectId) : AsksNothing (dbPointer collection id) :=
  (asksNothing_beginValue _).bind fun _ => (asksNothing_putPart fun _ => isLookup_of_textBytes).bind fun _ =>
    (asksNothing_put _).bind fun _ => asksNothing_endValue

theorem asksNothing_documentOf {fields : Write Unit} (h : AsksNothing fields) : AsksNothing (documentOf fields) :=
  asksNothing_startDocument.bind fun _ => h.bind fun _ => asksNothing_endDocument

theorem asksNothing_arrayOf {items : Write Unit} (h : AsksNothing items) : AsksNothing (arrayOf items) :=
  asksNothing_startArray.bind fun _ => h.bind fun _ => asksNothing_endArray

theorem isLookup_of_finish {w : Writer} {fault : Fault} (h : w.finish = .error fault) :
    fault.isLookup = false := by
  unfold Writer.finish at h
  split at h
  · cases h
    rfl
  · cases h

/-- A writer of its own fails in no other way, or has not come to the end. -/
theorem isLookup_of_alone {document : Write Unit} {fault : Fault} (h : AsksNothing document)
    (failed : alone document = .error fault) : fault.isLookup = false := by
  unfold alone at failed
  split at failed
  · exact isLookup_of_finish failed
  · next e w stopped =>
    cases failed
    exact h _ fault w stopped

theorem asksNothing_scopedCodeOf {scope : Write Unit} (code : String) (h : AsksNothing scope) :
    AsksNothing (scopedCodeOf code scope) := by
  refine (asksNothing_beginValue _).bind fun _ => ?_
  split
  · next fault failed =>
    exact (asksNothing_put _).bind fun _ => asksNothing_throw (isLookup_of_textBytes failed)
  · split
    · next fault failed =>
      exact (asksNothing_put _).bind fun _ => asksNothing_throw (isLookup_of_alone h failed)
    · split
      · next fault failed =>
        exact (asksNothing_put _).bind fun _ => asksNothing_throw (isLookup_of_lengthBytes failed)
      · exact (asksNothing_put _).bind fun _ => asksNothing_endValue

mutual

theorem asksNothing_value (v : Value) : AsksNothing (value v) := by
  rw [value.eq_def]
  cases v with
  | double | objectId | boolean | dateTime | int32 | timestamp | int64 | decimal128 =>
    exact asksNothing_fixed _ _
  | undefined | null | minKey | maxKey => exact asksNothing_fixed _ _
  | string | javaScript | symbol => exact asksNothing_textOf _ _
  | document doc => exact asksNothing_documentOf (asksNothing_fields doc)
  | array values => exact asksNothing_arrayOf (asksNothing_items values)
  | binary data => exact asksNothing_binary data
  | regularExpression pattern options => exact asksNothing_regularExpression pattern options
  | dbPointer collection id => exact asksNothing_dbPointer collection id
  | javaScriptWithScope code scope =>
    exact asksNothing_scopedCodeOf code (asksNothing_documentOf (asksNothing_fields scope))

theorem asksNothing_fields : (doc : List (String × Value)) → AsksNothing (fields doc)
  | [] => asksNothing_pure _
  | (text, v) :: rest =>
    (asksNothing_name text).bind fun _ => (asksNothing_value v).bind fun _ => asksNothing_fields rest

theorem asksNothing_items : (values : List Value) → AsksNothing (items values)
  | [] => asksNothing_pure _
  | v :: rest => (asksNothing_value v).bind fun _ => asksNothing_items rest

end

/-! ### Typed values -/

/-- What is written as a value is no lookup. -/
theorem asksNothing_of_eq {write : Write Unit} {v : Value} (same : write = value v) : AsksNothing write :=
  same ▸ asksNothing_value v

theorem asksNothing_uint32 (form : WordForm) (policy : Number.Conversion) (n : UInt32) :
    AsksNothing (uint32 form policy n) := by
  cases form with
  | double => exact asksNothing_fixed _ _
  | int32 =>
    unfold uint32
    dsimp only
    split
    · exact asksNothing_fixed _ _
    · exact asksNothing_throw rfl
  | int64 => exact asksNothing_fixed _ _
  | text => exact asksNothing_textOf _ _

end Write

end DocumentClient
