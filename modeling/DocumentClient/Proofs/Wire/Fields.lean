import DocumentClient.Proofs.Wire.Lookup
import DocumentClient.Proofs.Wire.Nesting

/-!
# Reading the fields that a writer laid, one after another

Whoever reads values of a known form goes through a container by hand: enters it, reads a tag and a name,
reads or passes over the value, and leaves the container behind its last element. Here this is followed for
bytes that a writer laid. The fields are known, and so is what each step finds.

* `Reader.Meets r v`: the reader stands before the bytes of the value.
* `Reader.Inside m r container n fields`: the reader is in a container with these fields still to come.
* `Read.Yields p v a`: the step reads `a` from the value and comes behind it.

Passing over a value asks less than reading it: the value may nest too deep or have a subtype that no byte
announces.

Results:
1. `Reader.Meets.skip`: whatever was written can be passed over.
2. `startContainer_laid`, `Reader.Inside.next`, `Reader.Inside.last`: the steps through a container.
3. `Reader.Inside.exists_elementAt`, `Reader.exists_field_of_whole`: the field behind some others is reached
   by counting, and by its name.
4. `Read.yields_double` … `Read.yields_value`: values are read back.
5. `Read.Yields.folded`: a document is read back field by field if each of its fields is.
-/

namespace DocumentClient

open Outcome Grammar Bytes

/-! ## Fields in parts -/

namespace Value

theorem length_le_length_fieldsPayload (fields : List (String × Value)) :
    fields.length ≤ (fieldsPayload fields).length := by
  induction fields with
  | nil => exact Nat.le_refl 0
  | cons field rest ih =>
    obtain ⟨name, v⟩ := field
    have tag : 0 < (header v.kind name).length := Nat.succ_pos _
    rw [fieldsPayload, List.length_append, List.length_append, List.length_cons]
    omega

end Value

theorem Write.fields_append (before after : List (String × Value)) :
    fields (before ++ after) = (do fields before; fields after) := by
  induction before with
  | nil => rfl
  | cons field rest ih =>
    obtain ⟨name, v⟩ := field
    rw [List.cons_append, fields, ih, fields]
    simp only [bind_assoc]

/-! ## Standing before a value -/

namespace Reader

/-- The reader stands before the bytes of a value that could be written. -/
structure Meets (r : Reader) (v : Value) : Prop where
  phase : r.phase = .value
  kind : r.kind = some v.kind
  inside : r.frames ≠ []
  writable : ∃ level, v.Writable level
  ahead : r.Ahead v.payload

/-- The reader `m` is in the container that `r` stood before. The container takes `n` bytes, and these
fields of it are still to come. -/
structure Inside (m r : Reader) (container : Container) (n : Nat) (fields : List (String × Value)) :
    Prop where
  phase : m.phase = .type
  frames : m.frames = ⟨container, r.pos + n⟩ :: r.frames
  data : m.data = r.data
  outerDepth : m.outerDepth = r.outerDepth
  writable : ∃ level, Value.FieldsWritable level fields
  ahead : m.Ahead (Value.fieldsPayload fields ++ [0])
  ends : m.pos + (Value.fieldsPayload fields ++ [0]).length = r.pos + n

/-- The reader `s` is one container further in than `r`, over the same bytes. -/
structure Deeper (s r : Reader) : Prop where
  data : s.data = r.data
  outerDepth : s.outerDepth = r.outerDepth
  depth : s.depth = r.depth + 1

end Reader

namespace Read

/-- The inner length of binary data fits into its word. -/
theorem measures_binary {data : Binary} {level : Nat} (writable : (Value.binary data).Writable level) :
    Measures .binary (binaryLayout data) := by
  rw [Value.Writable, ← Document.length_toList] at writable
  unfold binaryLayout
  dsimp only
  generalize eq : (if data.subtype = .binaryOld then _ else _ : List UInt8) = inner
  have fits : inner.length ≤ maxDocumentSize := by
    rw [← eq]
    split
    · next old =>
      rw [if_pos old] at writable
      rw [List.length_append, length_digits]
      omega
    · next recent => rwa [if_neg recent] at writable
  refine measures_of_length 5 rfl rfl (isLength_digits fits) ?_
  rw [List.length_append, length_digits, List.length_cons]
  omega

/-- A value that could be written is as long as its kind and its front say. -/
theorem measures_payload {v : Value} {level : Nat} (writable : v.Writable level) :
    Measures v.kind v.payload := by
  have framed {elements : List UInt8} (fits : elements.length + minDocumentSize ≤ maxDocumentSize) :
      IsLength (digits 4 (elements.length + minDocumentSize)) (Grammar.frame elements).length := by
    rw [length_frame]
    exact isLength_digits fits
  cases v with
  | document entries =>
    obtain ⟨-, -, fits⟩ := writable
    exact measures_whole rfl (List.append_assoc _ _ _) (framed fits)
  | array values =>
    obtain ⟨-, -, fits⟩ := writable
    exact measures_whole rfl (List.append_assoc _ _ _) (framed fits)
  | javaScriptWithScope code scope =>
    obtain ⟨-, -, -, fits⟩ := writable
    have whole : (Value.javaScriptWithScope code scope).payload.length =
        (textLayout code ++ Grammar.frame (Value.fieldsPayload scope)).length + 4 := by
      rw [Value.payload, List.length_append, length_digits, Nat.add_comm]
    exact measures_whole rfl rfl (whole ▸ isLength_digits fits)
  | binary data => exact measures_binary writable
  | _ => exact valueSize_of_derives (@derives_payload _ level 0 writable trivial (Nat.zero_le _))

end Read

/-! ## The steps through a container -/

namespace Reader

variable {m r s : Reader} {container : Container} {n : Nat} {name : String} {v : Value}
  {fields before after rest : List (String × Value)}

/-- Whatever was written can be passed over. -/
theorem Meets.skip (h : s.Meets v) : Read.skipValue s = .ok () (s.passed v.payload.length) := by
  obtain ⟨level, writable⟩ := h.writable
  exact Read.skipValue_of_measures h.phase h.kind h.ahead (Read.measures_payload writable)

theorem Meets.currentKind (h : s.Meets v) : Read.currentKind s = .ok v.kind s :=
  (Read.currentKind_eq_ok_iff h.phase).mpr ⟨h.kind, rfl⟩

theorem Meets.behind (h : s.Meets v) (n : Nat) : s.behind n = s.passed n := by
  unfold Reader.behind Reader.passed
  rw [if_neg (by simpa using h.inside)]

theorem Inside.deeper (h : m.Inside r container n fields) : m.Deeper r := by
  refine ⟨h.data, h.outerDepth, ?_⟩
  rw [Reader.depth, h.outerDepth, h.frames, List.length_cons]
  rfl

/-- There are fewer fields to come than there are bytes. -/
theorem Inside.length_lt (h : m.Inside r container n fields) : fields.length < m.data.size + 1 := by
  have few := Value.length_le_length_fieldsPayload fields
  have present := h.ahead.present
  rw [List.length_append] at present
  omega

/-- Entering a container that a writer laid. -/
theorem startContainer_laid {level : Nat} (expects : r.Expects container) (shallow : r.depth < maxNesting)
    (writable : Value.FieldsWritable level fields)
    (size : (Value.fieldsPayload fields).length + minDocumentSize ≤ maxDocumentSize)
    (ahead : r.Ahead (frame (Value.fieldsPayload fields))) :
    ∃ m, Read.startContainer container r = .ok () m ∧
      m.Inside r container (frame (Value.fieldsPayload fields)).length fields := by
  have whole := length_frame (Value.fieldsPayload fields)
  have ends : r.pos + 4 + (Value.fieldsPayload fields ++ [0]).length =
      r.pos + (frame (Value.fieldsPayload fields)).length := by
    rw [whole, List.length_append, List.length_singleton, minDocumentSize]
    omega
  have parts : r.Ahead (digits 4 ((Value.fieldsPayload fields).length + minDocumentSize) ++
      (Value.fieldsPayload fields ++ [0])) := by
    rw [← List.append_assoc]
    exact ahead
  refine ⟨r.entered container _, Read.startContainer_eq_ok_iff.mpr ⟨expects, shallow, _, _,
    isLength_digits (whole ▸ size), ?_, whole ▸ size, ?_, ahead.inside, rfl⟩, rfl, rfl, rfl, rfl,
    ⟨level, writable⟩, ?_, ends⟩
  · rw [whole]
    exact Nat.le_add_left _ _
  · rw [whole]
    exact parts.left
  · refine parts.right.transfer rfl ?_ (Nat.le_of_eq ends)
    rw [length_digits]
    rfl

/-- The tag and the name of the next field are read, and behind its value the others come. -/
theorem Inside.next (h : m.Inside r container n ((name, v) :: rest)) :
    ∃ s, Read.readType m = .ok (some v.kind) s ∧ s.name = name ∧ s.Meets v ∧ s.Deeper r ∧
      ∀ label, ((s.passed v.payload.length).named label).Inside r container n rest := by
  obtain ⟨level, free, here, behind⟩ := h.writable
  have ahead : m.Ahead (header v.kind name ++ (v.payload ++ (Value.fieldsPayload rest ++ [0]))) := by
    have all := h.ahead
    rw [Value.fieldsPayload] at all
    simpa only [List.append_assoc] using all
  refine ⟨m.atValue _ v.kind name, (Read.readType_eq_ok_iff h.phase h.frames).mpr
    (.inr ⟨_, _, rfl, free, ahead.left, rfl⟩), rfl, ⟨rfl, rfl, ?_, ⟨level, here⟩, ?_⟩,
    ⟨h.data, h.outerDepth, h.deeper.depth⟩, ?_⟩
  · show m.frames ≠ []
    simp [h.frames]
  · exact ahead.right.left.transfer rfl rfl ahead.right.left.inside
  · intro label
    have last := ahead.right.right
    refine ⟨rfl, h.frames, h.data, h.outerDepth, ⟨level, behind⟩, last.transfer rfl rfl last.inside, ?_⟩
    have ends := h.ends
    rw [Value.fieldsPayload] at ends
    simp only [List.length_append] at ends
    show m.pos + (header v.kind name).length + v.payload.length +
      (Value.fieldsPayload rest ++ [0]).length = _
    rw [List.length_append]
    omega

/-- Behind the last field the container ends, and the reader leaves it behind all of its bytes. -/
theorem Inside.last (h : m.Inside r container n []) :
    ∃ m', Read.readType m = .ok none m' ∧ m'.phase = container.endPhase ∧
      m'.left = (r.behind n).named m.name := by
  obtain ⟨phase, frames, data, outerDepth, -, ahead, ends⟩ := h
  have ends : m.pos + 1 = r.pos + n := ends
  refine ⟨m.closed container 1, (Read.readType_eq_ok_iff phase frames).mpr
    (.inl ⟨rfl, ahead, ends, rfl⟩), rfl, ?_⟩
  obtain ⟨⟨pos, phase, kind, name, frames⟩, data, outerDepth⟩ := m
  dsimp only at *
  subst data outerDepth frames
  unfold Reader.left Reader.closed Reader.behind Reader.named Reader.advance
  simpa using ends

/-! ## Coming to a field -/

end Reader

namespace Read

/-- Comes to the value of the element behind `n` others, whose values are passed over. -/
def elementAt : Nat → Read (Option Kind)
  | 0 => readType
  | n + 1 => do
    discard readType
    skipValue
    elementAt n

end Read

namespace Reader

variable {m r s : Reader} {container : Container} {n : Nat} {name : String} {v : Value}
  {fields before after rest : List (String × Value)}

/-- The field behind some others is reached by counting them, and by its name if none of them has it. -/
theorem Inside.exists_elementAt (h : m.Inside r container n (before ++ (name, v) :: after)) :
    ∃ s, Read.elementAt before.length m = .ok (some v.kind) s ∧ s.name = name ∧ s.Meets v ∧
      s.Deeper r ∧ (name ∉ before.map Prod.fst → ∀ fuel, before.length < fuel →
        Read.findWithin name fuel m = .ok true s) := by
  induction before generalizing m with
  | nil =>
    obtain ⟨s, read, named, meets, deeper, -⟩ := h.next
    refine ⟨s, read, named, meets, deeper, fun _ fuel enough => ?_⟩
    obtain ⟨fuel, rfl⟩ := Nat.exists_eq_add_of_lt enough
    rw [Read.findWithin, bind_of_ok read]
    dsimp only
    rw [get_bind, if_pos named]
    rfl
  | cons field rest ih =>
    obtain ⟨other, u⟩ := field
    obtain ⟨t, read, named, meets, -, behind⟩ := Inside.next h
    obtain ⟨s, reached, last⟩ := ih (behind t.name)
    obtain ⟨found, stands, deeper, searched⟩ := last
    have dropped : (discard Read.readType : Read Unit) m = .ok () t := by
      show (Read.readType >>= fun _ => pure ()) m = _
      rw [bind_of_ok read]
      rfl
    refine ⟨s, ?_, found, stands, deeper, fun fresh fuel enough => ?_⟩
    · rw [List.length_cons, Read.elementAt, bind_of_ok dropped, bind_of_ok meets.skip]
      exact reached
    · obtain ⟨fuel, rfl⟩ : ∃ k, fuel = k + 1 := Nat.exists_eq_succ_of_ne_zero (by omega)
      rw [List.map_cons, List.mem_cons, not_or] at fresh
      rw [Read.findWithin, bind_of_ok read]
      dsimp only
      rw [get_bind, named, if_neg (Ne.symm fresh.1), bind_of_ok meets.skip]
      exact searched fresh.2 fuel (Nat.lt_of_succ_lt_succ enough)

/-- A field of a document that was written is reached from the front of its bytes. -/
theorem exists_field_of_whole {level : Nat}
    (writable : (Value.document (before ++ (name, v) :: after)).Writable level) :
    ∃ m s, Read.startDocument
        (.ofBytes (Value.document (before ++ (name, v) :: after)).payload.toByteArray) = .ok () m ∧
      Read.elementAt before.length m = .ok (some v.kind) s ∧ s.currentName = .ok name ∧
      (name ∉ before.map Prod.fst → Read.findElement name m = .ok true s) ∧ s.Meets v ∧ s.depth = 1 := by
  obtain ⟨-, inner, size⟩ := writable
  rw [Value.payload]
  generalize front : Reader.ofBytes (frame (Value.fieldsPayload _)).toByteArray = r
  have top : r.depth = 0 := by
    rw [← front]
    rfl
  have expects : r.Expects .document := by
    rw [← front]
    exact .inl ⟨rfl, rfl⟩
  have ahead : r.Ahead (frame (Value.fieldsPayload (before ++ (name, v) :: after))) := by
    rw [← front]
    exact Read.front_ahead_iff.mpr (List.prefix_refl _)
  obtain ⟨m, entered, inside⟩ := startContainer_laid expects (top ▸ by decide) inner size ahead
  obtain ⟨s, reached, named, meets, ⟨-, -, depth⟩, searched⟩ := inside.exists_elementAt
  refine ⟨m, s, entered, reached, ?_, fun fresh => ?_, meets, by rw [depth, top]⟩
  · rw [Reader.currentName, meets.phase, named]
  · have few := inside.length_lt
    rw [List.length_append] at few
    exact searched fresh _ (by omega)

end Reader

/-! ## Reading values -/

namespace Read

variable {α β : Type} {v : Value} {a : α} {b : β}

/-- The step reads `a` from the value, wherever the value may stand, and comes behind it. -/
def Yields (p : Read α) (v : Value) (a : α) : Prop :=
  ∀ ⦃s : Reader⦄, s.Meets v → s.depth + v.nesting ≤ maxNesting →
    ∃ label, p s = .ok a ((s.passed v.payload.length).named label)

/-- What is read may be handed on. -/
theorem Yields.bind {p : Read α} {f : α → Read β} (h : Yields p v a) (next : ∀ s, f a s = .ok b s) :
    Yields (p >>= f) v b := by
  intro s meets shallow
  obtain ⟨label, read⟩ := h meets shallow
  exact ⟨label, by rw [bind_of_ok read, next]⟩

/-- Reading may go by the kind of the value. -/
theorem Yields.ofKind {f : Kind → Read α} (h : Yields (f v.kind) v a) :
    Yields (currentKind >>= f) v a := by
  intro s meets shallow
  rw [bind_of_ok meets.currentKind]
  exact h meets shallow

/-! ### Scalars -/

/-- A scalar is read back by the step for its kind. -/
theorem Yields.of_accepts {p : Read α} {rule : List UInt8 → α → Prop} (hp : AcceptsValue v.kind p rule)
    (form : ∀ level, v.Writable level → rule v.payload a) : Yields p v a := by
  intro s meets _
  obtain ⟨level, writable⟩ := meets.writable
  exact ⟨s.name, (hp _ _ _ meets.ahead.nil).mpr
    ⟨meets.phase, meets.kind, _, form level writable, meets.ahead, rfl⟩⟩

theorem yields_double (bits : UInt64) : Yields double (.double bits) bits :=
  .of_accepts acceptsValue_double fun _ _ => .double bits

theorem yields_int32 (n : Int32) : Yields int32 (.int32 n) n :=
  .of_accepts acceptsValue_int32 fun _ _ => .int32 n

theorem yields_int64 (n : Int64) : Yields int64 (.int64 n) n :=
  .of_accepts acceptsValue_int64 fun _ _ => .int64 n

theorem yields_boolean (b : Bool) : Yields boolean (.boolean b) b :=
  .of_accepts acceptsValue_boolean fun _ _ => .boolean b

theorem yields_string (text : String) : Yields string (.string text) text :=
  .of_accepts acceptsValue_string fun _ short => .string (isText_textLayout short)

theorem yields_null : Yields null .null () :=
  .of_accepts acceptsValue_null fun _ _ => .null

theorem yields_binary {data : Binary} (canonical : data.subtype.IsCanonical) :
    Yields binary (.binary data) data :=
  .of_accepts acceptsValue_binary fun _ writable => scalar_binaryLayout writable canonical

/-! ### Whatever comes next -/

/-- A value that can come back is read back by whoever reads any value. -/
theorem yields_value (unique : v.NamesUnique) (canonical : v.SubtypesCanonical) : Yields value v v := by
  intro s meets shallow
  obtain ⟨level, writable⟩ := meets.writable
  have derived := derives_payload v writable canonical shallow
  rw [Value.asRead_eq_self v unique] at derived
  have present := meets.ahead.present
  have enough : v.payload.length < fuelFor s := by
    unfold fuelFor
    omega
  exact (complete (fuelFor s)).1 enough derived meets.phase meets.kind meets.inside meets.ahead

theorem yields_document {doc : Document} (unique : doc.NamesUnique)
    (canonical : doc.SubtypesCanonical) : Yields document (.document doc.fields) doc := by
  intro s meets shallow
  obtain ⟨level, writable⟩ := meets.writable
  have derived := derives_payload _ writable canonical shallow
  rw [Value.asRead_eq_self _ unique] at derived
  have present := meets.ahead.present
  have enough : (Value.document doc.fields).payload.length ≤ fuelFor s := by
    unfold fuelFor
    omega
  obtain ⟨label, read⟩ := documentOf_complete (complete (fuelFor s)).2.1 enough
    (.inr ⟨meets.phase, meets.kind⟩) meets.ahead derived
  rw [meets.behind] at read
  exact ⟨label, read⟩

/-! ### Field by field -/

/-- The step reads one field after the other, and what it hands on becomes `t` in the end. -/
inductive Folds {σ : Type} (step : σ → String → Read σ) : σ → List (String × Value) → σ → Prop
  | nil (s : σ) : Folds step s [] s
  | cons {s t u : σ} {name : String} {v : Value} {rest : List (String × Value)} :
      Yields (step s name) v t → Folds step t rest u → Folds step s ((name, v) :: rest) u

/-- Fields that are read one after the other are read up to the end of their container. -/
theorem foldWithin_of_inside {σ : Type} {step : σ → String → Read σ} {s t : σ}
    {fields : List (String × Value)} (folds : Folds step s fields t) {m r : Reader} {container : Container}
    {n fuel : Nat} (inside : m.Inside r container n fields) (enough : fields.length < fuel)
    (shallow : r.depth + 1 + Value.fieldsNesting fields ≤ maxNesting) :
    ∃ m' label, foldWithin step fuel s m = .ok t m' ∧ m'.phase = container.endPhase ∧
      m'.left = (r.behind n).named label := by
  induction folds generalizing m fuel with
  | nil s =>
    obtain ⟨fuel, rfl⟩ : ∃ k, fuel = k + 1 := Nat.exists_eq_succ_of_ne_zero (by omega)
    obtain ⟨m', read, phase, left⟩ := inside.last
    refine ⟨m', m.name, ?_, phase, left⟩
    rw [foldWithin, bind_of_ok read]
    rfl
  | @cons s t u name v rest here behind ih =>
    obtain ⟨fuel, rfl⟩ : ∃ k, fuel = k + 1 := Nat.exists_eq_succ_of_ne_zero (by omega)
    rw [Value.fieldsNesting] at shallow
    obtain ⟨m₁, read, named, meets, ⟨-, -, depth⟩, others⟩ := inside.next
    obtain ⟨label, stepped⟩ := here meets (by omega)
    obtain ⟨m', last, folded, ends⟩ := ih (others label) (Nat.lt_of_succ_lt_succ enough) (by omega)
    refine ⟨m', last, ?_, ends⟩
    rw [foldWithin, bind_of_ok read]
    dsimp only
    rw [get_bind, named, bind_of_ok stepped, folded]

/-- A document is read back field by field if each of its fields is. -/
theorem Yields.folded {σ : Type} {step : σ → String → Read σ} {start done : σ} {k : σ → Read α}
    {fields : List (String × Value)} (folds : Folds step start fields done)
    (next : ∀ s, k done s = .ok a s) :
    Yields (do
      startDocument
      let found ← foldElements step start
      endDocument
      k found) (.document fields) a := by
  intro s meets shallow
  obtain ⟨level, -, writable, size⟩ := meets.writable
  rw [Value.nesting] at shallow
  have expects : s.Expects .document := .inr ⟨meets.phase, meets.kind⟩
  obtain ⟨m, entered, inside⟩ := Reader.startContainer_laid expects (by omega) writable size meets.ahead
  obtain ⟨m', label, folded, phase, left⟩ :=
    foldWithin_of_inside folds inside inside.length_lt (by omega)
  have folded : foldElements step start m = .ok done m' := folded
  have ended : endDocument m' = .ok () m'.left := endDocument_eq_ok_iff.mpr ⟨phase, rfl⟩
  refine ⟨label, ?_⟩
  rw [startDocument, bind_of_ok entered, bind_of_ok folded, bind_of_ok ended, next, left, meets.behind]
  rfl

end Read

end DocumentClient
