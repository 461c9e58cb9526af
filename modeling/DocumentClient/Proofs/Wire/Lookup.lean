import DocumentClient.Proofs.Wire.Decoding

/-!
# Looking for a field without reading what comes before it

A reader that looks for a name passes over the values of other names. It does not look inside them: the
kind, and for most kinds a length at the front of the value, tell how many bytes to pass over. For a
value that the grammar derives these are exactly the bytes of the value, so the search stays in step with
the elements, and it finds what decoding keeps: the first value of each name.

Results:
1. `Grammar.lookup_firstOfEach`: the first value of a name is the one that is kept.
2. `Read.valueSize_of_derives`, `Read.skipValue_of_derives`: a value is as long as its kind and its front
   say, so passing over it leads to where reading it leads.
3. `Read.findWithin_of_holds`: a search through the elements of a container, by induction on them.
4. `Document.findElement_of_decode`: searching a document agrees with decoding it.
-/

namespace DocumentClient

open Outcome Grammar Bytes

/-! ## The value of a name -/

namespace Grammar

theorem lookup_filter_ne {fields : List (String × Value)} {name other : String} (differ : name ≠ other) :
    (fields.filter fun field => field.1 ≠ other).lookup name = fields.lookup name := by
  induction fields with
  | nil => rfl
  | cons field rest ih =>
    obtain ⟨k, v⟩ := field
    by_cases same : k = other
    · have apart : (name == k) = false := beq_eq_false_iff_ne.mpr (same ▸ differ)
      rw [List.filter_cons_of_neg (by simpa using same), List.lookup_cons, apart, ih]
    · rw [List.filter_cons_of_pos (by simpa using same), List.lookup_cons, List.lookup_cons, ih]

/-- The first value of a name is the one that is kept. -/
theorem lookup_firstOfEach (fields : List (String × Value)) (name : String) :
    (firstOfEach fields).lookup name = fields.lookup name := by
  induction fields with
  | nil => rfl
  | cons field rest ih =>
    obtain ⟨k, v⟩ := field
    rw [firstOfEach, List.lookup_cons, List.lookup_cons]
    by_cases same : name = k
    · rw [beq_iff_eq.mpr same]
    · rw [beq_eq_false_iff_ne.mpr same, lookup_filter_ne same, ih]

/-- A text is four bytes longer than the length at its front. -/
theorem IsText.exists_length {bytes : List UInt8} {text : String} (h : IsText bytes text) :
    ∃ size rest n, bytes = size ++ rest ∧ IsLength size n ∧ bytes.length = 4 + n := by
  obtain ⟨isSize⟩ := h
  next size =>
    refine ⟨size, utf8 text ++ [0], _, List.append_assoc _ _ _, isSize, ?_⟩
    rw [List.append_assoc, List.length_append, isSize.length_eq, List.length_append,
      List.length_singleton]

end Grammar

/-! ## Passing over a value -/

namespace Read

variable {r m : Reader} {fuel depth : Nat} {bs : List UInt8} {v : Value} {f : Frame} {outer : List Frame}

theorem peekLength_of_ahead {size rest : List UInt8} {n : Nat} (isSize : IsLength size n)
    (ahead : r.Ahead (size ++ rest)) : peekLength r = .ok n r := by
  have front := ahead.left
  refine peekLength_eq_ok_iff.mpr ⟨⟨size, isSize, ?_, ?_⟩, rfl⟩
  · exact isSize.length_eq ▸ front.present
  · exact isSize.length_eq ▸ front.matching

/-- A value of the kind is as long as its front says: some bytes have been passed over in finding out,
and the others are counted. -/
def Measures (kind : Kind) (bs : List UInt8) : Prop :=
  ∀ r : Reader, r.Ahead bs → ∃ k n, valueSize kind r = .ok n (r.advance k) ∧ k + n = bs.length

theorem measures_fixed {kind : Kind} {n : Nat} (fixed : kind.fixedSize? = some n) (len : bs.length = n) :
    Measures kind bs := by
  intro r _
  refine ⟨0, n, ?_, by omega⟩
  unfold valueSize
  rw [fixed]
  rfl

/-- The length at the front of a value leaves out `more` bytes of it. -/
theorem measures_of_length {kind : Kind} {size rest : List UInt8} {n : Nat} (more : Nat)
    (sized : valueSize kind = peekLength >>= fun count => pure (more + count))
    (eq : bs = size ++ rest) (isSize : IsLength size n) (len : bs.length = more + n) :
    Measures kind bs := by
  intro r ahead
  have peeked := peekLength_of_ahead isSize (eq ▸ ahead)
  refine ⟨0, more + n, ?_, by omega⟩
  rw [sized, bind_of_ok peeked]
  rfl

theorem measures_text {kind : Kind} {text : String}
    (sized : valueSize kind = peekLength >>= fun count => pure (4 + count)) (h : IsText bs text) :
    Measures kind bs := by
  obtain ⟨size, rest, n, eq, isSize, len⟩ := h.exists_length
  exact measures_of_length 4 sized eq isSize len

theorem measures_regularExpression {left right : List UInt8} {pattern options : String}
    (hl : IsZeroEnded left pattern) (hr : IsZeroEnded right options) :
    Measures .regularExpression (left ++ right) := by
  intro r ahead
  have first := (accepts_zeroEnded _ _ _).mpr ⟨left, hl, ahead.left, rfl⟩
  have second := (accepts_zeroEnded _ _ _).mpr ⟨right, hr, ahead.right, rfl⟩
  refine ⟨(left ++ right).length, 0, ?_, rfl⟩
  show (do discard zeroEnded; discard zeroEnded; return 0 : Read Nat) r = _
  rw [bind_of_ok (a := ()) (t := r.advance left.length), bind_of_ok (a := ()), pure_eq_ok_iff]
  · exact ⟨rfl, rfl⟩
  · show (zeroEnded >>= fun _ => pure ()) _ = _
    rw [bind_of_ok second, Reader.advance_advance, ← List.length_append]
    rfl
  · show (zeroEnded >>= fun _ => pure ()) _ = _
    rw [bind_of_ok first]
    rfl

theorem scalar_measures (h : Scalar bs v) : Measures v.kind bs := by
  cases h with
  | double | dateTime | int64 => exact measures_fixed rfl (length_digits 8 _)
  | int32 => exact measures_fixed rfl (length_digits 4 _)
  | timestamp => exact measures_fixed rfl (by simp)
  | objectId | decimal128 => exact measures_fixed rfl Vector.length_toList
  | boolean | undefined | null | minKey | maxKey => exact measures_fixed rfl rfl
  | string text | javaScript text | symbol text => exact measures_text rfl text
  | regularExpression left right => exact measures_regularExpression left right
  | binary _ isSize =>
    refine measures_of_length 5 rfl rfl isSize ?_
    rw [List.length_append, isSize.length_eq, List.length_cons]
    omega
  | binaryOld isSize _ =>
    refine measures_of_length 5 rfl rfl isSize ?_
    rw [List.length_append, isSize.length_eq, List.length_cons]
    omega
  | dbPointer id text =>
    obtain ⟨size, rest, n, eq, isSize, len⟩ := text.exists_length
    intro r ahead
    have peeked := peekLength_of_ahead isSize (eq ▸ ahead.left)
    refine ⟨0, 4 + n + 12, ?_, ?_⟩
    · show (peekLength >>= fun count => pure (4 + count + 12)) r = _
      rw [bind_of_ok peeked]
      rfl
    · rw [List.length_append, len, Vector.length_toList]
      omega

/-- The length at the front of a value counts all of it. -/
theorem measures_whole {kind : Kind} {size rest : List UInt8} (sized : valueSize kind = peekLength)
    (eq : bs = size ++ rest) (isSize : IsLength size bs.length) : Measures kind bs := by
  intro r ahead
  refine ⟨0, bs.length, ?_, Nat.zero_add _⟩
  rw [sized, peekLength_of_ahead isSize (eq ▸ ahead)]
  rfl

/-- A derived value is as long as its kind and its front say. -/
theorem valueSize_of_derives (h : Derives depth bs v) : Measures v.kind bs := by
  cases h with
  | scalar h => exact scalar_measures h
  | document _ block _ _ | array _ block _ _ =>
    obtain ⟨size, isSize, eq⟩ := block.layout
    exact measures_whole rfl eq isSize
  | scopedCode isSize _ _ => exact measures_whole rfl (List.append_assoc _ _ _) isSize

/-- Passing over a value that is as long as its front says leads behind it. -/
theorem skipValue_of_measures {kind : Kind} (phase : r.phase = .value) (here : r.kind = some kind)
    (ahead : r.Ahead bs) (measures : Measures kind bs) : skipValue r = .ok () (r.passed bs.length) := by
  obtain ⟨k, n, sized, total⟩ := measures r ahead
  have inside := ahead.inside
  have present := ahead.present
  have taken : take n (r.advance k) =
      .ok ((r.advance k).data.extract (r.pos + k) (r.pos + k + n)) ((r.advance k).advance n) := by
    refine take_eq_ok_iff.mpr ⟨?_, ?_, rfl, rfl⟩
    · rw [Reader.advance_pos, Reader.advance_data]
      omega
    · rw [Reader.advance_pos, Reader.advance_limit]
      omega
  have dropped : (discard (take n) : Read Unit) (r.advance k) = .ok () (r.advance bs.length) := by
    show (take n >>= fun _ => pure ()) _ = _
    rw [bind_of_ok taken, Reader.advance_advance, total]
    rfl
  unfold skipValue
  rw [bind_of_ok ((currentKind_eq_ok_iff phase).mpr ⟨here, rfl⟩), get_bind, if_neg (not_not.mpr phase)]
  show (valueSize kind >>= fun n => discard (take n) >>= fun _ => endValue) r = _
  rw [bind_of_ok sized, bind_of_ok dropped]
  rfl

/-- Passing over a derived value leads behind it. -/
theorem skipValue_of_derives (phase : r.phase = .value) (here : r.kind = some v.kind)
    (ahead : r.Ahead bs) (derives : Derives depth bs v) : skipValue r = .ok () (r.passed bs.length) :=
  skipValue_of_measures phase here ahead (valueSize_of_derives derives)

/-! ## Searching -/

/-- The reader stands before the value of the element. -/
structure Before (r : Reader) (e : Element) : Prop where
  phase : r.phase = .value
  kind : r.kind = some e.value.kind
  inside : r.frames ≠ []
  value : Derives r.depth e.payload e.value
  ahead : r.Ahead e.payload

/-- The tag and the name of an element that comes next are read. -/
theorem readType_of_hasNext {e : Element} (phase : m.phase = .type) (frames : m.frames = f :: outer)
    (next : m.HasNext e) :
    ∃ r, readType m = .ok (some e.value.kind) r ∧ r.name = e.name ∧ Before r e ∧ r.data = m.data ∧
      r.passed e.payload.length = (m.after e).named e.name := by
  have ahead : m.Ahead (header e.value.kind e.name ++ e.payload) := next.ahead
  refine ⟨_, (readType_eq_ok_iff phase frames).mpr (.inr ⟨_, _, rfl, next.name, ahead.left, rfl⟩), rfl,
    ⟨rfl, rfl, ?_, next.value, ahead.right.transfer rfl rfl ahead.right.inside⟩, rfl, ?_⟩
  · show m.frames ≠ []
    simp [frames]
  · rw [Reader.after, Element.bytes, List.length_append]
    unfold Reader.passed Reader.atValue Reader.named Reader.advance
    simp [Nat.add_assoc]

/-- A search ends before the value of the first element with the name, or behind the terminator if
there is none. -/
theorem findWithin_of_holds (name : String) {elements : List Element} (enough : elements.length < fuel)
    (phase : m.phase = .type) (frames : m.frames = f :: outer) (holds : m.Holds elements) :
    match (elements.map Element.field).lookup name with
    | none => ∃ label, findWithin name fuel m =
        .ok false ((m.closed f.container (content elements).length).named label)
    | some v => ∃ e r, e.value = v ∧ findWithin name fuel m = .ok true r ∧ Before r e ∧
        r.data = m.data := by
  induction elements generalizing m fuel with
  | nil =>
    obtain ⟨fuel, rfl⟩ := Nat.exists_eq_add_of_lt enough
    obtain ⟨ahead, ends⟩ := Reader.holds_nil_iff.mp holds
    have stops := ends.trans (Reader.limit_of_cons frames)
    have last := (readType_eq_ok_iff phase frames).mpr (.inl ⟨rfl, ahead, stops, rfl⟩)
    refine ⟨m.name, ?_⟩
    rw [findWithin, bind_of_ok last]
    rfl
  | cons e elements ih =>
    obtain ⟨fuel, rfl⟩ : ∃ k, fuel = k + 1 := ⟨fuel - 1, by omega⟩
    obtain ⟨next, rest⟩ := (Reader.holds_cons_iff e.name).mp holds
    obtain ⟨r, read, named, before, data, behind⟩ := readType_of_hasNext phase frames next
    rw [findWithin, bind_of_ok read]
    dsimp only
    rw [get_bind, named, List.map_cons, Element.field, List.lookup_cons]
    by_cases same : name = e.name
    · rw [beq_iff_eq.mpr same, if_pos same.symm]
      exact ⟨e, r, rfl, rfl, before, data⟩
    · -- the value of another name is passed over, and the search goes on behind it
      have skipped := skipValue_of_derives before.phase before.kind before.ahead before.value
      rw [behind] at skipped
      rw [beq_eq_false_iff_ne.mpr same, if_neg (Ne.symm same), bind_of_ok skipped]
      have found := ih (m := (m.after e).named e.name) (by simpa using enough) rfl frames rest
      cases hv : (elements.map Element.field).lookup name with
      | none =>
        rw [hv] at found
        obtain ⟨label, found⟩ := found
        refine ⟨label, ?_⟩
        rw [found, Reader.closed_after]
      | some v =>
        rw [hv] at found
        exact found

/-- An element whose value comes next can be read. -/
theorem value_of_before {e : Element} (before : Before r e) : ∃ r', value r = .ok e.value r' := by
  have present := before.ahead.present
  have enough : e.payload.length < fuelFor r := by
    unfold fuelFor
    omega
  obtain ⟨name, read⟩ := (complete (fuelFor r)).1 enough before.value before.phase before.kind
    before.inside before.ahead
  exact ⟨_, read⟩

end Read

/-! ## Whole documents -/

namespace Grammar

theorem length_lt_length_content (elements : List Element) : elements.length < (content elements).length := by
  induction elements with
  | nil => simp [content]
  | cons e elements ih =>
    rw [Read.length_content_cons, List.length_cons]
    omega

end Grammar

namespace Document

open Read

theorem contains_eq_false_iff {doc : Document} {name : String} :
    doc.contains name = false ↔ doc.get? name = none := by
  rw [contains, Option.isSome_eq_false_iff, Option.isNone_iff_eq_none]

/-- A document that can be decoded can be searched. The search finds a name iff the document has it, and
then stops before the value that the document has; otherwise it comes to the end of the document, with
nothing left over. -/
theorem findElement_of_decode {data : ByteArray} {doc : Document} (h : decode data = .ok doc)
    (name : String) :
    ∃ m, startDocument (.ofBytes data) = .ok () m ∧
      ((∃ r, findElement name m = .ok true r) ↔ doc.contains name = true) ∧
      (∀ r, findElement name m = .ok true r →
        ∃ v r', doc.get? name = some v ∧ value r = .ok v r') ∧
      (doc.contains name = false → ∃ r r', findElement name m = .ok false r ∧
        endDocument r = .ok () r' ∧ r'.isDone = true ∧ r'.pos = data.size) := by
  have derives := isDocument_of_decode h
  have ahead : (Reader.ofBytes data).Ahead data.data.toList := by
    rw [ofBytes_eq]
    exact front_ahead_iff.mpr (List.prefix_refl _)
  obtain ⟨elements, ⟨shallow, block, names, values⟩, fields⟩ := derives_document_iff.mp derives
  obtain ⟨start, holds⟩ := (container_iff (r := .ofBytes data)).mpr
    ⟨.inl ⟨rfl, rfl⟩, shallow, _, block, ahead, names, values, rfl⟩
  have get : doc.get? name = (elements.map Element.field).lookup name := by
    rw [get?, fields, lookup_firstOfEach]
  have enough : elements.length < data.size + 1 := by
    have few := length_lt_length_content elements
    have total := length_block block
    rw [length_toList] at total
    omega
  have found := findWithin_of_holds name enough rfl rfl holds
  refine ⟨_, start, ?_⟩
  rw [contains_eq_false_iff, contains, get]
  cases hv : (elements.map Element.field).lookup name with
  | none =>
    rw [hv] at found
    obtain ⟨label, found⟩ := found
    have never (r : Reader) : findElement name
        ((Reader.ofBytes data).entered .document data.data.toList.length) ≠ .ok true r := by
      intro other
      cases other.symm.trans found
    refine ⟨⟨fun ⟨r, other⟩ => absurd other (never r), nofun⟩, fun r other => absurd other (never r),
      fun _ => ⟨_, _, found, endDocument_eq_ok_iff.mpr ⟨rfl, rfl⟩, rfl, ?_⟩⟩
    show 4 + (content elements).length = data.size
    rw [← length_toList, length_block block]
  | some v =>
    rw [hv] at found
    obtain ⟨e, r, rfl, found, before, -⟩ := found
    refine ⟨⟨fun _ => rfl, fun _ => ⟨r, found⟩⟩, fun s other => ?_, nofun⟩
    cases other.symm.trans found
    obtain ⟨r', read⟩ := value_of_before before
    exact ⟨_, r', rfl, read⟩

/-- The old form of binary data, code with a scope, and then two values of one name. -/
def searchedBytes : ByteArray :=
  ⟨#[51, 0, 0, 0,
    5, 97, 0, 6, 0, 0, 0, 2, 2, 0, 0, 0, 1, 2,
    15, 99, 0, 19, 0, 0, 0, 2, 0, 0, 0, 102, 0, 9, 0, 0, 0, 8, 121, 0, 1, 0,
    16, 98, 0, 7, 0, 0, 0,
    10, 98, 0,
    0]⟩

/-- What `searchedBytes` are decoded to. -/
def searched : Document :=
  ⟨[("a", .binary ⟨.binaryOld, ⟨#[1, 2]⟩⟩), ("c", .javaScriptWithScope "f" [("y", .boolean true)]),
    ("b", .int32 7)]⟩

theorem findElement_of_decode_searched :
    decode searchedBytes = .ok searched ∧ ∃ m, startDocument (.ofBytes searchedBytes) = .ok () m ∧
      (∃ r, findElement "b" m = .ok true r) ∧
      ∀ r, findElement "b" m = .ok true r → ∃ r', value r = .ok (.int32 7) r' := by
  have decoded : decode searchedBytes = .ok searched := by
    cbv
  obtain ⟨m, start, found, read, -⟩ := findElement_of_decode decoded "b"
  refine ⟨decoded, m, start, found.mpr rfl, fun r here => ?_⟩
  obtain ⟨v, r', get, read⟩ := read r here
  cases get
  exact ⟨r', read⟩

end Document

end DocumentClient
