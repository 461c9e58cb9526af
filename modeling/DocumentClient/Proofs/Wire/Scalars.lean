import DocumentClient.Proofs.Wire.Reading

/-!
# Reading values that hold no other values

A reader before a value knows the kind of the value. Each scalar is read in three steps: the kind is
checked, some bytes are taken, the value is left. What remains to be said of each kind is which bytes
it accepts, and that is what the grammar says.

Results:
1. `AcceptsValue`: a step reads a value of one kind exactly from the bytes that a rule allows;
   `acceptsValue_of_accepts` makes it from the middle one of the three steps.
2. `acceptsValue_double` … `acceptsValue_boolean`: each kind of scalar is read exactly as the grammar says.
3. `valueWithin_scalar_iff`: so is a value of whatever scalar kind comes next.
-/

namespace DocumentClient

open Outcome Grammar Bytes

/-- The reader behind a value of `n` bytes. -/
def Reader.passed (r : Reader) (n : Nat) : Reader :=
  { r.advance n with kind := none, phase := .type }

namespace Read

variable {α β : Type} {kind : Kind} {r r' : Reader}

/-- A step reads a value of one kind exactly from the bytes that a rule allows. A kind without bytes
is read wherever the reader stands, so it must stand inside its container. -/
def AcceptsValue (kind : Kind) (p : Read α) (rule : List UInt8 → α → Prop) : Prop :=
  ∀ (r r' : Reader) (a : α), r.Ahead [] →
    (p r = .ok a r' ↔ r.phase = .value ∧ r.kind = some kind ∧
      ∃ bs, rule bs a ∧ r.Ahead bs ∧ r' = r.passed bs.length)

theorem expectKind_eq_ok_iff {u : Unit} :
    expectKind kind r = .ok u r' ↔ r.kind = some kind ∧ r' = r := by
  unfold expectKind
  rw [peek_eq_ok_iff]
  cases r.kind with
  | none => simp
  | some found => simp [ite_eq_left_iff]

theorem beginValue_eq_ok_iff {u : Unit} :
    beginValue kind r = .ok u r' ↔ r.phase = .value ∧ r.kind = some kind ∧ r' = r := by
  unfold beginValue
  simp only [bind_eq_ok_iff, get_eq_ok_iff, guard_eq_ok_iff, expectKind_eq_ok_iff, not_not]
  constructor
  · rintro ⟨s, m, ⟨rfl, rfl⟩, phase, h⟩
    exact ⟨phase, h⟩
  · rintro ⟨phase, h⟩
    exact ⟨r, r, ⟨rfl, rfl⟩, phase, h⟩

theorem endValue_eq_ok_iff {u : Unit} :
    endValue r = .ok u r' ↔ r' = { r with kind := none, phase := .type } := by
  unfold endValue
  rw [modify_eq_ok_iff, eq_comm]

/-- A value is read as its middle step reads. -/
theorem acceptsValue_of_accepts {p : Read α} {f : α → β} {rule : List UInt8 → α → Prop}
    {meaning : List UInt8 → β → Prop} (hp : Accepts p rule)
    (same : ∀ bs b, meaning bs b ↔ ∃ a, rule bs a ∧ f a = b) :
    AcceptsValue kind
      (do
        beginValue kind
        let a ← p
        endValue
        return f a)
      meaning := by
  intro r r' b _
  simp only [bind_eq_ok_iff, beginValue_eq_ok_iff, endValue_eq_ok_iff, pure_eq_ok_iff, same]
  constructor
  · rintro ⟨_, _, ⟨phase, here, rfl⟩, a, m, h, _, _, rfl, rfl, rfl⟩
    obtain ⟨bs, fits, ahead, rfl⟩ := (hp _ _ _).mp h
    exact ⟨phase, here, bs, ⟨a, fits, rfl⟩, ahead, rfl⟩
  · rintro ⟨phase, here, bs, ⟨a, fits, rfl⟩, ahead, rfl⟩
    exact ⟨(), r, ⟨phase, here, rfl⟩, a, _, (hp _ _ _).mpr ⟨bs, fits, ahead, rfl⟩, (), _, rfl, rfl, rfl⟩

/-- A value of a fixed size is read by undoing its code. -/
theorem acceptsValue_fixed {size : Nat} {decode : ByteArray → α} {rule : List UInt8 → α → Prop}
    {code : α → List UInt8} (len : ∀ a, (code a).length = size)
    (decodes : ∀ {bs a}, bs.length = size → (decode bs.toByteArray = a ↔ bs = code a))
    (same : ∀ bs a, rule bs a ↔ bs = code a) : AcceptsValue kind (fixed kind size decode) rule := by
  apply acceptsValue_of_accepts (accepts_take size)
  intro bs a
  rw [same]
  constructor
  · rintro rfl
    exact ⟨_, ⟨len a, rfl⟩, (decodes (len a)).mpr rfl⟩
  · rintro ⟨_, ⟨short, rfl⟩, h⟩
    exact (decodes short).mp h

theorem acceptsValue_unit {rule : List UInt8 → Unit → Prop} (same : ∀ bs u, rule bs u ↔ bs = []) :
    AcceptsValue kind (unit kind) rule := by
  intro r r' u room
  unfold unit
  simp only [bind_eq_ok_iff, beginValue_eq_ok_iff, endValue_eq_ok_iff, same]
  constructor
  · intro h
    rcases h with ⟨_, _, ⟨phase, here, rfl⟩, rfl⟩
    exact ⟨phase, here, [], rfl, room, rfl⟩
  · intro h
    rcases h with ⟨phase, here, _, rfl, -, rfl⟩
    exact ⟨(), r, ⟨phase, here, rfl⟩, rfl⟩

/-! ## Every scalar -/

theorem acceptsValue_double :
    AcceptsValue .double double fun bs bits => Scalar bs (.double bits) :=
  acceptsValue_fixed (fun _ => length_digits 8 _) toUInt64_eq_iff
    fun _ _ => ⟨fun | .double _ => rfl, fun h => h ▸ .double _⟩

theorem acceptsValue_int32 : AcceptsValue .int32 int32 fun bs n => Scalar bs (.int32 n) :=
  acceptsValue_fixed (fun _ => length_digits 4 _) toInt32_eq_iff
    fun _ _ => ⟨fun | .int32 _ => rfl, fun h => h ▸ .int32 _⟩

theorem acceptsValue_int64 : AcceptsValue .int64 int64 fun bs n => Scalar bs (.int64 n) :=
  acceptsValue_fixed (fun _ => length_digits 8 _) toInt64_eq_iff
    fun _ _ => ⟨fun | .int64 _ => rfl, fun h => h ▸ .int64 _⟩

theorem acceptsValue_decimal128 :
    AcceptsValue .decimal128 decimal128 fun bs bytes => Scalar bs (.decimal128 bytes) :=
  acceptsValue_fixed (fun _ => Vector.length_toList) toVector_eq_iff
    fun _ _ => ⟨fun | .decimal128 _ => rfl, fun h => h ▸ .decimal128 _⟩

theorem acceptsValue_objectId :
    AcceptsValue .objectId objectId fun bs id => Scalar bs (.objectId id) := by
  refine acceptsValue_fixed (fun _ => Vector.length_toList) (fun {bs id} len => ?_)
    fun _ _ => ⟨fun | .objectId _ => rfl, fun h => h ▸ .objectId _⟩
  rw [← toVector_eq_iff len, ObjectId.mk.injEq]

theorem acceptsValue_dateTime :
    AcceptsValue .dateTime dateTime fun bs t => Scalar bs (.dateTime t) := by
  refine acceptsValue_fixed (fun _ => length_digits 8 _) (fun {bs t} len => ?_)
    fun _ _ => ⟨fun | .dateTime _ => rfl, fun h => h ▸ .dateTime _⟩
  rw [← toInt64_eq_iff len]
  exact ⟨congrArg Instant.millis, congrArg Instant.mk⟩

theorem acceptsValue_timestamp :
    AcceptsValue .timestamp timestamp fun bs t => Scalar bs (.timestamp t) := by
  refine acceptsValue_fixed (fun _ => by simp [length_digits]) (fun {bs t} len => ?_)
    fun _ _ => ⟨fun | .timestamp _ => rfl, fun h => h ▸ .timestamp _⟩
  exact toTimestamp_eq_iff len

theorem acceptsValue_textOf {f : String → Value}
    (same : ∀ bs text, Scalar bs (f text) ↔ IsText bs text) :
    AcceptsValue kind (textOf kind) fun bs text => Scalar bs (f text) := by
  apply acceptsValue_of_accepts accepts_text
  intro bs text
  rw [same]
  exact ⟨fun h => ⟨text, h, rfl⟩, fun ⟨_, h, eq⟩ => eq ▸ h⟩

theorem acceptsValue_string : AcceptsValue .string string fun bs text => Scalar bs (.string text) :=
  acceptsValue_textOf fun _ _ => ⟨fun | .string h => h, .string⟩

theorem acceptsValue_javaScript :
    AcceptsValue .javaScript javaScript fun bs code => Scalar bs (.javaScript code) :=
  acceptsValue_textOf fun _ _ => ⟨fun | .javaScript h => h, .javaScript⟩

theorem acceptsValue_symbol : AcceptsValue .symbol symbol fun bs text => Scalar bs (.symbol text) :=
  acceptsValue_textOf fun _ _ => ⟨fun | .symbol h => h, .symbol⟩

theorem acceptsValue_undefined :
    AcceptsValue .undefined undefined fun bs (_ : Unit) => Scalar bs .undefined :=
  acceptsValue_unit fun _ _ => ⟨fun | .undefined => rfl, fun h => h ▸ .undefined⟩

theorem acceptsValue_null : AcceptsValue .null null fun bs (_ : Unit) => Scalar bs .null :=
  acceptsValue_unit fun _ _ => ⟨fun | .null => rfl, fun h => h ▸ .null⟩

theorem acceptsValue_minKey : AcceptsValue .minKey minKey fun bs (_ : Unit) => Scalar bs .minKey :=
  acceptsValue_unit fun _ _ => ⟨fun | .minKey => rfl, fun h => h ▸ .minKey⟩

theorem acceptsValue_maxKey : AcceptsValue .maxKey maxKey fun bs (_ : Unit) => Scalar bs .maxKey :=
  acceptsValue_unit fun _ _ => ⟨fun | .maxKey => rfl, fun h => h ▸ .maxKey⟩

/-- A value is read as its two middle steps read. -/
theorem acceptsValue_of_pair {γ : Type} {p : Read α} {q : Read β} {f : α → β → γ}
    {first : List UInt8 → α → Prop} {second : List UInt8 → β → Prop}
    {meaning : List UInt8 → γ → Prop} (hp : Accepts p first) (hq : Accepts q second)
    (same : ∀ bs c, meaning bs c ↔
      ∃ a b as cs, first as a ∧ second cs b ∧ bs = as ++ cs ∧ f a b = c) :
    AcceptsValue kind
      (do
        beginValue kind
        let a ← p
        let b ← q
        endValue
        return f a b)
      meaning := by
  intro r r' c _
  simp only [bind_eq_ok_iff, beginValue_eq_ok_iff, endValue_eq_ok_iff, pure_eq_ok_iff, same]
  constructor
  · intro h
    rcases h with ⟨_, _, ⟨phase, here, rfl⟩, a, _, ha, b, _, hb, _, _, rfl, rfl, rfl⟩
    obtain ⟨as, fits, ahead, rfl⟩ := (hp _ _ _).mp ha
    obtain ⟨cs, fits', behind, rfl⟩ := (hq _ _ _).mp hb
    refine ⟨phase, here, as ++ cs, ⟨a, b, as, cs, fits, fits', rfl, rfl⟩,
      Reader.Ahead.append_iff.mpr ⟨ahead, behind⟩, ?_⟩
    rw [Reader.advance_advance, ← List.length_append]
    rfl
  · intro h
    rcases h with ⟨phase, here, _, ⟨a, b, as, cs, fits, fits', rfl, rfl⟩, ahead, rfl⟩
    refine ⟨(), r, ⟨phase, here, rfl⟩, a, _, (hp _ _ _).mpr ⟨as, fits, ahead.left, rfl⟩, b, _,
      (hq _ _ _).mpr ⟨cs, fits', ahead.right, rfl⟩, (), _, rfl, rfl, ?_⟩
    rw [Reader.advance_advance, ← List.length_append]
    rfl

theorem acceptsValue_regularExpression :
    AcceptsValue .regularExpression regularExpression
      fun bs p => Scalar bs (.regularExpression p.1 p.2) := by
  apply acceptsValue_of_pair accepts_zeroEnded accepts_zeroEnded
  rintro bs ⟨pattern, options⟩
  constructor
  · intro h
    rcases h with ⟨⟩
    next left right hl hr => exact ⟨pattern, options, left, right, hl, hr, rfl, rfl⟩
  · intro h
    rcases h with ⟨_, _, left, right, hl, hr, rfl, eq⟩
    cases eq
    exact .regularExpression hl hr

theorem acceptsValue_dbPointer :
    AcceptsValue .dbPointer dbPointer fun bs p => Scalar bs (.dbPointer p.1 p.2) := by
  apply acceptsValue_of_pair accepts_text (accepts_take 12)
  rintro bs ⟨collection, id⟩
  have len : id.bytes.toList.length = 12 := Vector.length_toList
  constructor
  · rintro ⟨⟩
    next bytes h =>
      refine ⟨collection, _, bytes, id.bytes.toList, h, ⟨len, rfl⟩, rfl, ?_⟩
      rw [(toVector_eq_iff len).mpr rfl]
  · rintro ⟨_, _, as, cs, h, ⟨short, rfl⟩, rfl, eq⟩
    injection eq with same here
    subst same
    rw [(toVector_eq_iff short).mp (congrArg ObjectId.bytes here)]
    exact .dbPointer id h

theorem ofByte_eq_binaryOld_iff {b : UInt8} : BinarySubtype.ofByte b = .binaryOld ↔ b = 2 := by
  constructor
  · intro h
    rw [← BinarySubtype.toByte_ofByte b, h]
    rfl
  · rintro rfl
    rfl

/-- What is read of binary data between the check of its kind and its end. -/
def binaryBody : Read Binary := do
  let outer ← length 0
  let b ← byte
  if BinarySubtype.ofByte b = .binaryOld then
    let inner ← length 0
    if inner + 4 ≠ outer then throw (.malformed (.innerLength inner outer))
    let bytes ← take inner
    return ⟨.ofByte b, bytes⟩
  else
    let bytes ← take outer
    return ⟨.ofByte b, bytes⟩

theorem binary_eq :
    binary = do
      beginValue .binary
      let data ← binaryBody
      endValue
      return data := by
  unfold binary binaryBody
  simp only [bind_assoc]
  congr 1
  funext _
  congr 1
  funext outer
  congr 1
  funext b
  split
  · simp only [bind_assoc]
    congr 1
    funext inner
    split
    · rfl
    · simp only [bind_assoc, pure_bind]
  · simp only [bind_assoc, pure_bind]

theorem accepts_binaryBody : Accepts binaryBody fun bs data => Scalar bs (.binary data) := by
  refine (accepts_bind (accepts_length 0) fun outer => accepts_bind accepts_byte fun b => accepts_ite
    (accepts_bind (accepts_length 0) fun inner => accepts_guard (accepts_map (accepts_take inner)))
    (accepts_map (accepts_take outer))).congr ?_
  rintro bs data
  constructor
  · intro h
    cases h with
    | @binary size bytes subtype recent isSize =>
      refine ⟨_, size, subtype :: bytes, rfl, ⟨isSize, by omega⟩, subtype, [subtype], bytes, rfl, rfl, ?_⟩
      rw [if_neg (recent ∘ ofByte_eq_binaryOld_iff.mp)]
      exact ⟨_, ⟨rfl, rfl⟩, rfl⟩
    | @binaryOld size inner bytes isSize isInner =>
      refine ⟨_, size, 2 :: (inner ++ bytes), rfl, ⟨isSize, by omega⟩, 2, [2], inner ++ bytes, rfl, rfl, ?_⟩
      rw [if_pos (ofByte_eq_binaryOld_iff.mpr rfl)]
      have total : bytes.length + 4 = (inner ++ bytes).length := by
        rw [List.length_append, isInner.length_eq, Nat.add_comm]
      exact ⟨_, inner, bytes, rfl, ⟨isInner, by omega⟩, not_not.mpr total, _, ⟨rfl, rfl⟩, rfl⟩
  · rintro ⟨outer, size, _, rfl, ⟨isSize, -⟩, b, _, rest, rfl, rfl, h⟩
    split at h
    · next old =>
      obtain ⟨n, inner, bytes, rfl, ⟨isInner, -⟩, total, _, ⟨rfl, rfl⟩, rfl⟩ := h
      obtain rfl := ofByte_eq_binaryOld_iff.mp old
      have counts : outer = (inner ++ bytes).length := by
        rw [List.length_append, isInner.length_eq]
        omega
      exact .binaryOld (counts ▸ isSize) isInner
    · next recent =>
      obtain ⟨_, ⟨rfl, rfl⟩, rfl⟩ := h
      exact .binary (recent ∘ ofByte_eq_binaryOld_iff.mpr) isSize

theorem acceptsValue_binary : AcceptsValue .binary binary fun bs data => Scalar bs (.binary data) := by
  rw [binary_eq]
  exact acceptsValue_of_accepts accepts_binaryBody fun bs data =>
    ⟨fun h => ⟨data, h, rfl⟩, fun ⟨_, h, eq⟩ => eq ▸ h⟩

theorem acceptsValue_boolean : AcceptsValue .boolean boolean fun bs b => Scalar bs (.boolean b) := by
  intro r r' b _
  unfold boolean
  simp only [bind_eq_ok_iff, beginValue_eq_ok_iff]
  constructor
  · rintro ⟨_, _, ⟨phase, here, rfl⟩, c, _, hc, h⟩
    obtain ⟨_, rfl, ahead, rfl⟩ := (accepts_byte _ _ _).mp hc
    refine ⟨phase, here, [c], ?_⟩
    split at h
    · next zero =>
      simp only [bind_eq_ok_iff, endValue_eq_ok_iff, pure_eq_ok_iff] at h
      obtain ⟨_, _, rfl, rfl, rfl⟩ := h
      exact ⟨zero ▸ .boolean false, ahead, rfl⟩
    · split at h
      · next one =>
        simp only [bind_eq_ok_iff, endValue_eq_ok_iff, pure_eq_ok_iff] at h
        obtain ⟨_, _, rfl, rfl, rfl⟩ := h
        exact ⟨one ▸ .boolean true, ahead, rfl⟩
      · exact absurd h (by simp [throw_eq_ok_iff])
  · rintro ⟨phase, here, _, ⟨⟩, ahead, rfl⟩
    refine ⟨(), r, ⟨phase, here, rfl⟩, _, _, (accepts_byte _ _ _).mpr ⟨_, rfl, ahead, rfl⟩, ?_⟩
    cases b <;> rfl

/-! ## Whatever scalar comes next -/

theorem currentKind_eq_ok_iff {found : Kind} (phase : r.phase = .value) :
    currentKind r = .ok found r' ↔ r.kind = some found ∧ r' = r := by
  unfold currentKind
  rw [peek_eq_ok_iff, Reader.currentKind, phase]
  cases r.kind with
  | none => simp
  | some kind => simp

/-- Reading a value and wrapping it reads the wrapped values. -/
theorem AcceptsValue.wrap {p : Read α} {g : α → Read Value} {f : α → Value}
    (hp : AcceptsValue kind p fun bs a => Scalar bs (f a)) (wraps : ∀ a, g a = pure (f a))
    (only : ∀ v : Value, v.kind = kind → ∃ a, v = f a) (sort : ∀ a, (f a).kind = kind) :
    AcceptsValue kind (p >>= g) fun bs v => Scalar bs v ∧ v.kind = kind := by
  intro r r' v room
  simp only [bind_eq_ok_iff, wraps, pure_eq_ok_iff]
  constructor
  · rintro ⟨a, _, h, rfl, rfl⟩
    obtain ⟨phase, here, bs, fits, rest⟩ := (hp _ _ _ room).mp h
    exact ⟨phase, here, bs, ⟨fits, sort a⟩, rest⟩
  · rintro ⟨phase, here, bs, ⟨fits, same⟩, rest⟩
    obtain ⟨a, rfl⟩ := only v same
    exact ⟨a, r', (hp _ _ _ room).mpr ⟨phase, here, bs, fits, rest⟩, rfl, rfl⟩

/-- The next value, if it holds no other values and has this kind. -/
def scalar : Kind → Read Value
  | .double => return .double (← double)
  | .string => return .string (← string)
  | .binary => return .binary (← binary)
  | .undefined => do undefined; return .undefined
  | .objectId => return .objectId (← objectId)
  | .boolean => return .boolean (← boolean)
  | .dateTime => return .dateTime (← dateTime)
  | .null => do null; return .null
  | .regularExpression => do
    let (pattern, options) ← regularExpression
    return .regularExpression pattern options
  | .dbPointer => do
    let (collection, id) ← dbPointer
    return .dbPointer collection id
  | .javaScript => return .javaScript (← javaScript)
  | .symbol => return .symbol (← symbol)
  | .int32 => return .int32 (← int32)
  | .timestamp => return .timestamp (← timestamp)
  | .int64 => return .int64 (← int64)
  | .decimal128 => return .decimal128 (← decimal128)
  | .minKey => do minKey; return .minKey
  | .maxKey => do maxKey; return .maxKey
  | .document | .array | .javaScriptWithScope => throw (.misuse .noCurrentValue)

/-- Reading a value goes by its kind. -/
theorem valueWithin_eq (fuel : Nat) : valueWithin (fuel + 1) = (do
    match ← currentKind with
    | .document => return .document (← documentOf (fieldsWithin fuel)).fields
    | .array => return .array (← arrayOf (itemsWithin fuel))
    | .javaScriptWithScope =>
      let (code, scope) ← scopedCodeOf (fieldsWithin fuel)
      return .javaScriptWithScope code scope.fields
    | kind => scalar kind) := by
  rw [valueWithin]
  congr 1
  funext kind
  cases kind <;> rfl

/-- Every scalar is read exactly as the grammar says. -/
theorem acceptsValue_scalar (flat : kind ≠ .document ∧ kind ≠ .array ∧ kind ≠ .javaScriptWithScope) :
    AcceptsValue kind (scalar kind) fun bs v => Scalar bs v ∧ v.kind = kind := by
  cases kind with
  | document => exact absurd rfl flat.1
  | array => exact absurd rfl flat.2.1
  | javaScriptWithScope => exact absurd rfl flat.2.2
  | double =>
    exact acceptsValue_double.wrap (fun _ => rfl) (fun | .double bits, _ => ⟨bits, rfl⟩) fun _ => rfl
  | string =>
    exact acceptsValue_string.wrap (fun _ => rfl) (fun | .string text, _ => ⟨text, rfl⟩) fun _ => rfl
  | binary =>
    exact acceptsValue_binary.wrap (fun _ => rfl) (fun | .binary data, _ => ⟨data, rfl⟩) fun _ => rfl
  | undefined =>
    exact acceptsValue_undefined.wrap (fun _ => rfl) (fun | .undefined, _ => ⟨(), rfl⟩) fun _ => rfl
  | objectId =>
    exact acceptsValue_objectId.wrap (fun _ => rfl) (fun | .objectId id, _ => ⟨id, rfl⟩) fun _ => rfl
  | boolean =>
    exact acceptsValue_boolean.wrap (fun _ => rfl) (fun | .boolean b, _ => ⟨b, rfl⟩) fun _ => rfl
  | dateTime =>
    exact acceptsValue_dateTime.wrap (fun _ => rfl) (fun | .dateTime t, _ => ⟨t, rfl⟩) fun _ => rfl
  | null =>
    exact acceptsValue_null.wrap (fun _ => rfl) (fun | .null, _ => ⟨(), rfl⟩) fun _ => rfl
  | regularExpression =>
    exact acceptsValue_regularExpression.wrap (fun _ => rfl)
      (fun | .regularExpression pattern options, _ => ⟨(pattern, options), rfl⟩) fun _ => rfl
  | dbPointer =>
    exact acceptsValue_dbPointer.wrap (fun _ => rfl)
      (fun | .dbPointer collection id, _ => ⟨(collection, id), rfl⟩) fun _ => rfl
  | javaScript =>
    exact acceptsValue_javaScript.wrap (fun _ => rfl) (fun | .javaScript code, _ => ⟨code, rfl⟩) fun _ => rfl
  | symbol =>
    exact acceptsValue_symbol.wrap (fun _ => rfl) (fun | .symbol text, _ => ⟨text, rfl⟩) fun _ => rfl
  | int32 =>
    exact acceptsValue_int32.wrap (fun _ => rfl) (fun | .int32 n, _ => ⟨n, rfl⟩) fun _ => rfl
  | timestamp =>
    exact acceptsValue_timestamp.wrap (fun _ => rfl) (fun | .timestamp t, _ => ⟨t, rfl⟩) fun _ => rfl
  | int64 =>
    exact acceptsValue_int64.wrap (fun _ => rfl) (fun | .int64 n, _ => ⟨n, rfl⟩) fun _ => rfl
  | decimal128 =>
    exact acceptsValue_decimal128.wrap (fun _ => rfl) (fun | .decimal128 bytes, _ => ⟨bytes, rfl⟩) fun _ => rfl
  | minKey =>
    exact acceptsValue_minKey.wrap (fun _ => rfl) (fun | .minKey, _ => ⟨(), rfl⟩) fun _ => rfl
  | maxKey =>
    exact acceptsValue_maxKey.wrap (fun _ => rfl) (fun | .maxKey, _ => ⟨(), rfl⟩) fun _ => rfl

/-- A value of whatever scalar kind comes next is read exactly as the grammar says. -/
theorem valueWithin_scalar_iff {fuel : Nat} {v : Value} (phase : r.phase = .value)
    (here : r.kind = some kind) (room : r.Ahead [])
    (flat : kind ≠ .document ∧ kind ≠ .array ∧ kind ≠ .javaScriptWithScope) :
    valueWithin (fuel + 1) r = .ok v r' ↔
      ∃ bs, (Scalar bs v ∧ v.kind = kind) ∧ r.Ahead bs ∧ r' = r.passed bs.length := by
  have next : currentKind r = .ok kind r := (currentKind_eq_ok_iff phase).mpr ⟨here, rfl⟩
  have read : valueWithin (fuel + 1) r = scalar kind r := by
    rw [valueWithin_eq, bind_of_ok next]
    cases kind with
    | document => exact absurd rfl flat.1
    | array => exact absurd rfl flat.2.1
    | javaScriptWithScope => exact absurd rfl flat.2.2
    | _ => rfl
  rw [read, acceptsValue_scalar flat r r' v room]
  exact ⟨fun h => h.2.2, fun h => ⟨phase, here, h⟩⟩

end Read

end DocumentClient
