import DocumentClient.Proofs.Typed.Lookahead
import DocumentClient.Proofs.Typed.RoundTrip
import DocumentClient.Proofs.Wire.Misuse

/-!
# A typed value is one value

Whoever reads a document hands the reader to a codec and takes it back behind the field; whoever writes one
does the same with the writer. So a codec that succeeds must have dealt with exactly one value, however many
containers it has opened in between and whatever it has passed over in them.

* `Coder.Consumes act`: where the decoding succeeds before a value, the reader comes to where passing over the
  value comes to.

Results:
1. `Read.consumes_pair`, `Read.consumes_uint8`, `Read.consumes_uint32`: the values that are read by hand or by
   their kind. The reference systems are in `Read.consumes_linkedCrs` and `Read.consumes_namedCrs`.
2. `Codec.consumes_decode`: every codec consumes; one case for each codec.
3. `Codec.exists_value_of_encode`: every codec that succeeds has written one value; one case for each codec.
4. `Codec.handles_one_value`: what follows wherever a reader or a writer may stand.
-/

namespace DocumentClient

open Outcome Grammar Coder

/-! ## Reading by hand -/

namespace Read

variable {α β : Type} {what : String}

/-- A value may be told by its kind. -/
theorem consumes_ofKind {p : Kind → Read α} (consumes : ∀ kind, Consumes (p kind)) :
    Consumes (currentKind >>= p) := by
  intro r s a phase inside room read
  obtain ⟨kind, m, here, rest⟩ := bind_eq_ok_iff.mp read
  obtain ⟨-, rfl⟩ := peek_eq_ok_iff.mp here
  exact consumes kind phase inside room rest

/-- A conversion does not move the reader. -/
theorem Consumes.converted {p : Read β} (h : Consumes p) (convert : β → Except Fault α) :
    Consumes (p >>= fun b => ofExcept (convert b)) :=
  h.bind fun _ _ _ _ last => (peek_eq_ok_iff.mp last).2

theorem consumes_int32 : Consumes int32 :=
  consumes_of_acceptsValue acceptsValue_int32 fun _ => rfl

theorem consumes_int64 : Consumes int64 :=
  consumes_of_acceptsValue acceptsValue_int64 fun _ => rfl

theorem consumes_double : Consumes double :=
  consumes_of_acceptsValue acceptsValue_double fun _ => rfl

theorem consumes_boolean : Consumes boolean :=
  consumes_of_acceptsValue acceptsValue_boolean fun _ => rfl

theorem consumes_binary : Consumes binary :=
  consumes_of_acceptsValue acceptsValue_binary fun _ => rfl

theorem consumes_null : Consumes null :=
  consumes_of_acceptsValue acceptsValue_null fun _ => rfl

/-! ### Unsigned numbers -/

theorem consumes_uint8 : Consumes uint8 := by
  refine consumes_ofKind fun kind => ?_
  cases kind with
  | binary =>
    refine consumes_binary.bind fun data r b s last => ?_
    obtain ⟨_, ⟨⟨bytes⟩⟩⟩ := data
    match bytes with
    | [] => cases last
    | [_] => exact (pure_eq_ok_iff.mp last).2.symm
    | _ :: _ :: _ => cases last
  | int32 => exact consumes_int32.converted _
  | int64 => exact consumes_int64.converted _
  | string => exact consumes_string.converted _
  | _ => exact consumes_throw _

theorem consumes_uint32 (policy : Number.Conversion) : Consumes (uint32 policy) := by
  refine consumes_ofKind fun kind => ?_
  cases kind with
  | double => exact consumes_double.converted _
  | int32 => exact consumes_int32.converted _
  | int64 => exact consumes_int64.converted _
  | string => exact consumes_string.converted _
  | _ => exact consumes_throw _

/-! ### Points -/

/-- What comes behind one of the doubles of a point may come behind the element. -/
theorem finishes_ordinate {rest : UInt64 → Read α} (finishes : ∀ bits, Finishes (rest bits)) :
    Finishes (ordinate what >>= rest) := by
  intro m s f outer a frames h
  obtain ⟨bits, t, read, h⟩ := bind_eq_ok_iff.mp h
  obtain ⟨next, x, typed, read⟩ := bind_eq_ok_iff.mp read
  rcases readType_cases frames typed with ⟨rfl, -⟩ | ⟨kind, n, name, rfl, rfl, room⟩
  · cases read
  · have inside : m.frames ≠ [] := by simp [frames]
    obtain ⟨bs, label, -, -, rfl⟩ := consumes_double (r := m.atValue n kind name) rfl inside room read
    exact (finishes bits).behind frames h

/-- The inside of a point. -/
def ordinates (what : String) : Read (UInt64 × UInt64) := do
  let first ← ordinate what
  let second ← ordinate what
  match ← readType with
  | some _ => throw (.malformed (.pairSize what))
  | none => return (first, second)

theorem pair_eq_container (what : String) :
    pair what = (do
      startArray
      let point ← ordinates what
      endArray
      return point) := by
  unfold pair ordinates
  simp only [bind_assoc]
  refine congrArg (startArray >>= ·) (funext fun _ => ?_)
  refine congrArg (ordinate what >>= ·) (funext fun first => ?_)
  refine congrArg (ordinate what >>= ·) (funext fun second => ?_)
  refine congrArg (readType >>= ·) (funext fun next => ?_)
  cases next <;> rfl

theorem finishes_ordinates (what : String) : Finishes (ordinates what) := by
  refine finishes_ordinate fun first => finishes_ordinate fun second => ?_
  intro m s f outer point frames h
  obtain ⟨next, x, typed, last⟩ := bind_eq_ok_iff.mp h
  rcases readType_cases frames typed with ⟨rfl, stop, present, rfl⟩ | ⟨kind, n, name, rfl, -, -⟩
  · obtain ⟨-, rfl⟩ := pure_eq_ok_iff.mp last
    exact ⟨1, m.name, stop, present, rfl⟩
  · cases last

theorem consumes_pair (what : String) : Consumes (pair what) := by
  rw [pair_eq_container]
  exact consumes_container (finishes_ordinates what)
    (fun _ _ left => (endArray_eq_ok_iff.mp left).2) still_pure

end Read

/-! ## Decoding -/

namespace Coder

variable {α β : Type}

/-- Where the decoding succeeds before a value, the reader comes to where passing over the value comes to, up
to the name in store. -/
def Consumes (act : Decode α) : Prop :=
  ∀ ⦃c c' : Coder Reader⦄ ⦃a : α⦄, c.place.phase = .value → c.place.frames ≠ [] → c.place.Ahead [] →
    act c = .ok a c' → ∃ bs label, c.place.Ahead bs ∧
      Read.skipValue c.place = .ok () (c.place.passed bs.length) ∧
      c'.place = (c.place.passed bs.length).named label

theorem consumes_atPlace {p : Read α} (h : p.Consumes) : Consumes (atPlace p) := by
  intro c c' a phase inside room read
  exact h phase inside room (atPlace_eq_ok_iff.mp read).1

/-- What does not move the reader may come before. -/
theorem Consumes.behind {before : Decode β} {act : β → Decode α} (consumes : ∀ b, Consumes (act b))
    (still : ∀ c b c', before c = .ok b c' → c'.place = c.place) : Consumes (before >>= act) := by
  intro c c' a phase inside room read
  obtain ⟨b, m, first, rest⟩ := bind_eq_ok_iff.mp read
  have here := still c b m first
  rw [← here] at phase inside room ⊢
  exact consumes b phase inside room rest

theorem Consumes.map {act : Decode β} (h : Consumes act) (g : β → α) :
    Consumes (act >>= fun b => pure (g b)) := by
  intro c c' a phase inside room read
  obtain ⟨b, m, first, last⟩ := bind_eq_ok_iff.mp read
  obtain ⟨-, rfl⟩ := pure_eq_ok_iff.mp last
  exact h phase inside room first

end Coder

namespace Codec

/-- A reference system is looked at ahead, from where the reader comes back, and then read by a codec. -/
theorem consumes_decodeCrs : Consumes decodeCrs := by
  have asked {inner : Shape} (c : Coder Reader) (found : Codec inner) (c' : Coder Reader)
      (h : Coder.codec inner c = .ok found c') : c'.place = c.place := (codec_eq_ok_iff.mp h).1
  have told (c : Coder Reader) (kind : CrsKind) (c' : Coder Reader)
      (h : atPlace Read.crsKind c = .ok kind c') : c'.place = c.place :=
    (Read.crsKind_iff.mp (atPlace_eq_ok_iff.mp h).1).1
  refine .behind (fun kind => ?_) told
  cases kind with
  | linked =>
    refine .behind (fun found => ?_) asked
    rw [decodeLinked_eq]
    exact (consumes_atPlace Read.consumes_linkedCrs).map _
  | named =>
    refine .behind (fun found => ?_) asked
    rw [decodeNamed_eq]
    exact (consumes_atPlace Read.consumes_namedCrs).map _

/-- A record is made of a document. -/
theorem consumes_readRecord (schema : Schema) : (readRecord schema).Consumes := by
  refine Read.consumes_document.bind fun doc r row s last => ?_
  cases made : schema.ofDocument doc with
  | ok row' =>
    rw [made] at last
    exact (pure_eq_ok_iff.mp last).2.symm
  | error cause =>
    rw [made] at last
    cases last

/-- A word is never found in a document. -/
theorem consumes_readNoRecord : readNoRecord.Consumes := by
  intro r s n _ _ _ read
  obtain ⟨_, m, -, last⟩ := bind_eq_ok_iff.mp read
  cases last

/-- A missing value is null, and one that is there is read by the codec for it. -/
theorem consumes_nullable {shape : Shape} {codec : Codec shape} (h : Consumes codec.decode) :
    Consumes codec.nullable.decode := by
  have told (c : Coder Reader) (kind : Kind) (c' : Coder Reader)
      (h : atPlace Read.currentKind c = .ok kind c') : c'.place = c.place :=
    (Read.peek_eq_ok_iff.mp (atPlace_eq_ok_iff.mp h).1).2
  refine .behind (fun kind => ?_) told
  split
  · exact (consumes_atPlace Read.consumes_null).map _
  · exact h.map some

/-- A codec that succeeds has read one value. Those that refuse everything have nothing to show. -/
theorem consumes_decode : {shape : Shape} → (codec : Codec shape) → Consumes codec.decode
  | _, .uint8 _ => consumes_atPlace Read.consumes_uint8
  | _, .uint32 _ policy => consumes_atPlace (Read.consumes_uint32 policy)
  | _, .int32 => consumes_atPlace Read.consumes_int32
  | _, .int32Record => consumes_atPlace consumes_readNoRecord
  | _, .int64 => consumes_atPlace Read.consumes_int64
  | _, .double => consumes_atPlace Read.consumes_double
  | _, .boolean => consumes_atPlace Read.consumes_boolean
  | _, .text => consumes_atPlace Read.consumes_string
  | _, .document => consumes_atPlace Read.consumes_document
  | _, .value => consumes_atPlace Read.consumes_value
  | _, .projected => consumes_atPlace (Read.consumes_pair _).map
  | _, .geographic => consumes_atPlace (Read.consumes_pair _).map
  | _, .coordinates => fun _ _ _ _ _ _ read => nomatch read
  | _, .linkedCrs => consumes_atPlace Read.consumes_linkedCrs
  | _, .namedCrs => consumes_atPlace Read.consumes_namedCrs
  | _, .crs => consumes_decodeCrs
  | _, .record schema => consumes_atPlace (consumes_readRecord schema)
  | _, .nullable codec => consumes_nullable (consumes_decode codec)

/-! ## Encoding -/

/-- The codec of a part is asked for, and every codec that there may be writes the same value. -/
theorem exists_value_of_part {inner : Shape} {write : Codec inner → Write Unit} {v : Value}
    {c c' : Coder Writer} (only : ∀ found, write found = Write.value v)
    (h : (Coder.codec inner >>= fun found => atPlace (write found)) c = .ok () c') :
    ∃ v, Write.value v c.place = .ok () c'.place := by
  obtain ⟨found, m, asked, written⟩ := bind_eq_ok_iff.mp h
  obtain ⟨written, -⟩ := atPlace_eq_ok_iff.mp written
  rw [only, (codec_eq_ok_iff.mp asked).1] at written
  exact ⟨v, written⟩

theorem exists_value_of_encodeCrs {system : Crs} {c c' : Coder Writer} (h : encodeCrs system c = .ok () c') :
    ∃ v, Write.value v c.place = .ok () c'.place := by
  cases system with
  | linked system => exact exists_value_of_part (fun | .linkedCrs => Write.linkedCrs_eq system) h
  | named system => exact exists_value_of_part (fun | .namedCrs => Write.namedCrs_eq system) h

/-- A codec that succeeds has written one value. -/
theorem exists_value_of_encode {shape : Shape} {codec : Codec shape} {a : shape.Carrier} {c c' : Coder Writer}
    (h : codec.encode a c = .ok () c') : ∃ v, Write.value v c.place = .ok () c'.place := by
  have written {write : Write Unit} {v : Value} (h : atPlace write c = .ok () c') (same : write = Write.value v) :
      ∃ v, Write.value v c.place = .ok () c'.place :=
    ⟨v, same ▸ (atPlace_eq_ok_iff.mp h).1⟩
  induction codec with
  | uint8 form => exact written h (Write.uint8_eq form a)
  | uint32 form policy =>
    obtain ⟨v, whole, -⟩ := Write.exists_value_of_uint32 (atPlace_eq_ok_iff.mp h).1
    exact ⟨v, whole⟩
  | int32 => exact written (v := .int32 a) h rfl
  | int32Record => cases h
  | int64 => exact written (v := .int64 a) h rfl
  | double => exact written (v := .double a) h rfl
  | boolean => exact written (v := .boolean a) h rfl
  | text => exact written (v := .string a) h rfl
  | document => exact written (v := .document a.fields) h rfl
  | value => exact written h rfl
  | projected => exact written h (Write.pair_eq a.easting a.northing)
  | geographic => exact written h (Write.pair_eq a.longitude a.latitude)
  | coordinates => cases h
  | linkedCrs => exact written h (Write.linkedCrs_eq a)
  | namedCrs => exact written h (Write.namedCrs_eq a)
  | crs => exact exists_value_of_encodeCrs h
  | record schema => exact written (v := .document (schema.toDocument a).fields) h rfl
  | nullable codec ih =>
    cases a with
    | none => exact written (v := .null) h rfl
    | some a => exact ih h

end Codec

/-! ## Wherever it stands -/

namespace Writer

/-- Where a tidy writer is ready for a value, and which name the value gets. -/
theorem Tidy.awaits {w : Writer} {body : ByteArray} {index : Option Nat} {outer : List OpenContainer}
    {name : String} (h : w.Tidy) (inner : w.containers = ⟨body, index⟩ :: outer)
    (ready : w.phase = .value ∧ w.pendingName = some name ∨ w.phase = .name ∧ index.map toString = some name) :
    w.Awaits name ⟨w.base, ⟨body, index.map (· + 1)⟩ :: outer, .name, none⟩ := by
  obtain ⟨unnamed, field⟩ := h
  obtain ⟨base, containers, phase, pending⟩ := w
  dsimp only at inner ready unnamed
  subst inner
  rcases ready with ⟨rfl, rfl⟩ | ⟨rfl, named⟩
  · cases index with
    | none => exact .field base body outer name
    | some index => cases field rfl
  · obtain rfl : pending = none := unnamed nofun
    cases index with
    | none => cases named
    | some index =>
      obtain rfl : toString index = name := Option.some.inj named
      exact .item base body outer index

end Writer

namespace Codec

/-- A reader that has been used in any way and stands before a value comes to the same place whether it reads
the value or a codec reads a typed one: only the name in store may differ. A writer that has been called in any
way and is ready for a value has one element more when a codec has written a typed one, in the same containers
and before the next name or item. -/
theorem handles_one_value {shape : Shape} (codec : Codec shape) (registry : Registry) :
    (∀ (bytes : ByteArray) (depth : Nat), depth ≤ maxNesting → ∀ moves : List Reader.Move,
      let r := ((Reader.Use.over bytes depth).play moves).reader
      r.phase = .value → ∀ v s, Read.value r = .ok v s → ∀ a c, codec.decode ⟨r, registry⟩ = .ok a c →
        c.place.pos = s.pos ∧ c.place.frames = s.frames ∧ c.place.phase = .type ∧ s.phase = .type ∧
          c.place = s.named c.place.name) ∧
    ∀ (base : ByteArray) (calls : List Writer.Call) (body : ByteArray) (index : Option Nat)
      (outer : List OpenContainer) (name : String),
      let w := Writer.Call.attemptAll calls (.ofBytes base)
      w.containers = ⟨body, index⟩ :: outer →
      w.phase = .value ∧ w.pendingName = some name ∨ w.phase = .name ∧ index.map toString = some name →
      ∀ a c, codec.encode a ⟨w, registry⟩ = .ok () c → ∃ v : Value, v.Writable (outer.length + 1) ∧
        c.place = ⟨w.base, ⟨body ++ (header v.kind name ++ v.payload).toByteArray, index.map (· + 1)⟩ :: outer,
          .name, none⟩ := by
  constructor
  · intro bytes depth level moves r phase v s read a c decoded
    have sound : r.Sound := ((Reader.Use.sound_over bytes level).play moves).reader
    have inside : r.frames ≠ [] := sound.frames_ne_nil (.inr phase)
    have room : r.Ahead [] := Reader.ahead_nil_iff.mpr ⟨sound.inside, sound.inside.trans sound.limit_le⟩
    obtain ⟨bs, label, -, skipped, rfl⟩ := Read.consumes_value phase inside room read
    obtain ⟨bs', label', -, skipped', place⟩ := consumes_decode codec phase inside room decoded
    -- passing over the value leads to one place only
    obtain ⟨-, same⟩ := EStateM.Result.ok.inj (skipped'.symm.trans skipped)
    rw [place, same]
    exact ⟨rfl, rfl, rfl, rfl, rfl⟩
  · intro base calls body index outer name w inner ready a c encoded
    have awaits := ((Writer.tidy_ofBytes base).attemptAll calls).awaits inner ready
    obtain ⟨v, written⟩ := exists_value_of_encode encoded
    obtain ⟨writable, place⟩ := (Write.value_laid v awaits).mp written
    refine ⟨v, ?_, place⟩
    have depth : w.containers.length = outer.length + 1 := by simp [inner]
    exact depth ▸ writable

/-- A document with a point. -/
def pointField : ByteArray :=
  ⟨#[35, 0, 0, 0, 4, 112, 0, 27, 0, 0, 0,
    1, 48, 0, 0, 0, 0, 0, 0, 0, 240, 63,
    1, 49, 0, 0, 0, 0, 0, 0, 0, 0, 64, 0, 0]⟩

/-- To the point, which is asked for as a text. -/
def pointMoves : List Reader.Move :=
  [.call .startDocument, .call .readType, .call (.ofKind .string)]

/-- The reader before the point. -/
def pointReader : Reader where
  data := pointField
  pos := 7
  phase := .value
  kind := some .array
  name := "p"
  frames := [⟨.document, 35⟩]

/-- The reader behind the point. -/
def pointPassed : Reader :=
  { pointReader with pos := 34, phase := .type, kind := none, name := "1" }

/-- Into an array, behind whose first item a name is refused. -/
def pointCalls : List Writer.Call :=
  [.startDocument, .name "p", .startArray, .null, .name "q"]

/-- The writer behind this item. -/
def pointWriter : Writer where
  containers := [⟨⟨#[10, 48, 0]⟩, some 1⟩, ⟨⟨#[4, 112, 0]⟩, none⟩]
  phase := .name

theorem handles_one_value_point :
    (0 ≤ maxNesting ∧ ((Reader.Use.over pointField 0).play pointMoves).reader = pointReader ∧
      pointReader.phase = .value ∧
      Read.value pointReader = .ok (.array [.double 0x3FF0000000000000, .double 0x4000000000000000])
        pointPassed ∧
      ∃ c, projected.nullable.decode ⟨pointReader, .default⟩ =
          .ok (some ⟨0x3FF0000000000000, 0x4000000000000000⟩) c ∧
        c.place.pos = 34 ∧ c.place.frames = [⟨.document, 35⟩] ∧ c.place.phase = .type) ∧
    Writer.Call.attemptAll pointCalls (.ofBytes .empty) = pointWriter ∧ pointWriter.phase = .name ∧
      ∃ (c : Coder Writer) (v : Value),
        projected.nullable.encode (some ⟨0, 0⟩) ⟨pointWriter, .default⟩ = .ok () c ∧ v.Writable 2 ∧
        c.place = ⟨.empty, [⟨⟨#[10, 48, 0]⟩ ++ (header v.kind "1" ++ v.payload).toByteArray, some 2⟩,
          ⟨⟨#[4, 112, 0]⟩, none⟩], .name, none⟩ := by
  have level : 0 ≤ maxNesting := Nat.zero_le _
  have reached : ((Reader.Use.over pointField 0).play pointMoves).reader = pointReader := by
    cbv
  have come : Writer.Call.attemptAll pointCalls (.ofBytes .empty) = pointWriter := by
    cbv
  have read : Read.value pointReader =
      .ok (.array [.double 0x3FF0000000000000, .double 0x4000000000000000]) pointPassed := by
    cbv
  have taken : Read.projected pointReader = .ok ⟨0x3FF0000000000000, 0x4000000000000000⟩ pointPassed := by
    cbv
  have ahead : atPlace Read.currentKind ⟨pointReader, .default⟩ = .ok .array ⟨pointReader, .default⟩ :=
    atPlace_eq_ok_iff.mpr ⟨rfl, rfl⟩
  have point : projected.decode ⟨pointReader, .default⟩ =
      .ok ⟨0x3FF0000000000000, 0x4000000000000000⟩ ⟨pointPassed, .default⟩ :=
    atPlace_eq_ok_iff.mpr ⟨taken, rfl⟩
  have decoded : projected.nullable.decode ⟨pointReader, .default⟩ =
      .ok (some ⟨0x3FF0000000000000, 0x4000000000000000⟩) ⟨pointPassed, .default⟩ := by
    rw [decode, bind_of_ok ahead, if_neg (by decide), bind_of_ok point]
    rfl
  have item : Write.projected ⟨0, 0⟩ pointWriter = .ok () (left (Write.projected ⟨0, 0⟩) pointWriter) := by
    cbv
  have encoded : projected.nullable.encode (some ⟨0, 0⟩) ⟨pointWriter, .default⟩ =
      .ok () ⟨left (Write.projected ⟨0, 0⟩) pointWriter, .default⟩ := by
    rw [encode, encode]
    exact atPlace_eq_ok_iff.mpr ⟨item, rfl⟩
  obtain ⟨reads, writes⟩ := handles_one_value projected.nullable .default
  have behind := reads pointField 0 level pointMoves
  have added := writes .empty pointCalls ⟨#[10, 48, 0]⟩ (some 1) [⟨⟨#[4, 112, 0]⟩, none⟩] "1"
  rw [reached] at behind
  rw [come] at added
  obtain ⟨pos, frames, phase, -, -⟩ := behind rfl _ _ read _ _ decoded
  obtain ⟨v, writable, place⟩ := added rfl (.inr ⟨rfl, rfl⟩) _ _ encoded
  exact ⟨⟨level, reached, rfl, read, _, decoded, pos, frames, phase⟩, come, rfl, _, v, encoded, writable, place⟩

end Codec

end DocumentClient
