import DocumentClient.Proofs.Wire.Confinement
import DocumentClient.Proofs.Wire.Fields

/-!
# Passing over a value and reading it

Whoever passes over a value trusts what stands at its front, whoever reads it looks at all of it. Where a
value can be read both come to the same place. Passing over asks for less: a document, an array or code with
its scope is as long as it declares, also if no value of that kind is so short.

* `Kind.leastFrame`: the fewest bytes of a value that begins with its own length.

Results:
1. `Read.skipValue_of_value`: whoever can read a value can pass over it, and comes to the same place.
2. `Grammar.Derives.framed`: a value that can be read declares as many bytes as it has, no fewer than the
   least.
3. `Read.skipValue_framed_iff`: a value that begins with its own length is passed over iff the bytes that it
   declares are there.
4. `Read.readType_inside_length`: behind a value that ends inside its own length comes no element.
5. `Read.elementAt_succ`, `Read.findWithin_eq_false`: a search that finds nothing has passed over one element
   after the other.
6. `Read.framed_of_skipValue`: what all of this says of the lengths that values declare.
-/

namespace DocumentClient

open Outcome Grammar Bytes

/-! ## Where reading comes to -/

namespace Reader

theorem ahead_nil_iff {r : Reader} : r.Ahead [] ↔ r.pos ≤ r.limit ∧ r.pos ≤ r.data.size := by
  constructor
  · intro ahead
    exact ⟨ahead.inside, ahead.present⟩
  · rintro ⟨inside, present⟩
    obtain ⟨bs, none, ahead⟩ := Ahead.exists_of_room (r := r) 0 inside present
    rwa [List.eq_nil_of_length_eq_zero none] at ahead

end Reader

namespace Read

variable {m r s t : Reader} {v : Value} {kind : Kind} {next : Option Kind} {name : String} {k n : Nat}

/-- Readers stand inside their containers however they are used. Such a reader that can read the next value
can pass over it instead, and then stands where it would stand behind the value that it has read, in the same
containers and before the next element. Inside a container nothing but the name in store tells the two
apart. -/
theorem skipValue_of_value :
    (∀ (bytes : ByteArray) (depth : Nat), depth ≤ maxNesting → ∀ moves : List Reader.Move,
      let r := ((Reader.Use.over bytes depth).play moves).reader
      r.pos ≤ r.limit ∧ r.pos ≤ r.data.size ∧ (r.phase = .value → r.frames ≠ [])) ∧
    ∀ (r s : Reader) (v : Value), r.phase = .value → r.pos ≤ r.limit → r.pos ≤ r.data.size →
      value r = .ok v s →
      ∃ t, skipValue r = .ok () t ∧ t.pos = s.pos ∧ t.frames = s.frames ∧ t.phase = .type ∧
        t.kind = none ∧ (r.frames ≠ [] → s = t.named s.name) := by
  refine ⟨fun bytes depth level moves => ?_, fun r s v phase inside present read => ?_⟩
  · have sound := ((Reader.Use.sound_over bytes level).play moves).reader
    exact ⟨sound.inside, sound.inside.trans sound.limit_le, fun phase => sound.frames_ne_nil (.inr phase)⟩
  · have shorter := sound r.data.size
    obtain ⟨bs, name, derives, here, ahead, lands⟩ := anyValue_sound shorter.2.1 shorter.2.2 phase
      (Reader.ahead_nil_iff.mpr ⟨inside, present⟩) read
    refine ⟨_, skipValue_of_derives phase here ahead derives, ?_⟩
    rcases lands with rfl | rfl
    · exact ⟨rfl, rfl, rfl, rfl, fun _ => rfl⟩
    · refine ⟨rfl, rfl, rfl, rfl, fun inner => ?_⟩
      unfold Reader.behind Reader.passed
      rw [if_neg (by simpa using inner)]
      rfl

/-- A document with an array of code with its scope, binary data of the old form and null. -/
def mixedArray : ByteArray :=
  ⟨#[47, 0, 0, 0, 4, 97, 0, 39, 0, 0, 0,
    15, 48, 0, 14, 0, 0, 0, 1, 0, 0, 0, 0, 5, 0, 0, 0, 0,
    5, 49, 0, 6, 0, 0, 0, 2, 2, 0, 0, 0, 7, 8,
    10, 50, 0, 0, 0]⟩

theorem skipValue_of_value_mixedArray :
    ∃ r s t, (do startDocument; readType) (.ofBytes mixedArray) = .ok (some .array) r ∧
      (r.phase = .value ∧ r.pos ≤ r.limit ∧ r.pos ≤ r.data.size ∧ r.frames ≠ []) ∧
      value r =
        .ok (.array [.javaScriptWithScope "" [], .binary ⟨.binaryOld, ⟨#[7, 8]⟩⟩, .null]) s ∧
      s.pos = 46 ∧ skipValue r = .ok () t ∧ t.pos = s.pos ∧ t.frames = s.frames ∧ t.phase = .type ∧
      t.kind = none ∧ s = t.named s.name := by
  have start : (do startDocument; readType) (.ofBytes mixedArray) =
      .ok (some .array)
        { data := mixedArray, pos := 7, phase := .value, kind := some .array, name := "a",
          frames := [⟨.document, 47⟩] } := by
    cbv
  have read : value
        { data := mixedArray, pos := 7, phase := .value, kind := some .array, name := "a",
          frames := [⟨.document, 47⟩] } =
      .ok (.array [.javaScriptWithScope "" [], .binary ⟨.binaryOld, ⟨#[7, 8]⟩⟩, .null])
        { data := mixedArray, pos := 46, phase := .type, name := "2", frames := [⟨.document, 47⟩] } := by
    cbv
  have inner : [(⟨.document, 47⟩ : Frame)] ≠ [] := by
    decide
  obtain ⟨t, skipped, pos, frames, before, kind, same⟩ :=
    skipValue_of_value.2 _ _ _ rfl (by decide) (by decide) read
  exact ⟨_, _, t, start, ⟨rfl, by decide, by decide, inner⟩, read, rfl, skipped, pos, frames, before, kind,
    same inner⟩

end Read

/-! ## Values that begin with their own length -/

/-- The fewest bytes of a value that begins with its own length. Code with its scope has, behind that length,
a text and a document. -/
def Kind.leastFrame : Kind → Nat
  | .javaScriptWithScope => 4 + (4 + 1) + minDocumentSize
  | _ => minDocumentSize

namespace Grammar

theorem IsText.least {bytes : List UInt8} {text : String} (h : IsText bytes text) : 4 + 1 ≤ bytes.length := by
  obtain ⟨isSize⟩ := h
  rw [List.length_append, List.length_append, isSize.length_eq, List.length_singleton]
  omega

/-- A value that holds others declares as many bytes as it has, no fewer than the least. -/
theorem Derives.framed {depth : Nat} {bs : List UInt8} {v : Value} (h : Derives depth bs v)
    (framed : v.kind.IsFramed) :
    v.kind.leastFrame ≤ bs.length ∧ ∃ size rest, bs = size ++ rest ∧ IsLength size bs.length := by
  cases h with
  | scalar h => cases h <;> simp [Kind.IsFramed, Value.kind] at framed
  | document _ block _ _ | array _ block _ _ =>
    obtain ⟨size, isSize, eq⟩ := block.layout
    exact ⟨block.least, size, _, eq, isSize⟩
  | @scopedCode _ size text block _ _ isSize isText inner =>
    refine ⟨?_, size, text ++ block, List.append_assoc _ _ _, isSize⟩
    have scope : minDocumentSize ≤ block.length := by
      cases inner with
      | scalar h => cases h
      | document _ inner _ _ => exact inner.least
    have code := isText.least
    rw [Value.kind, Kind.leastFrame, List.length_append, List.length_append, isSize.length_eq]
    omega

end Grammar

namespace Read

variable {m r s t : Reader} {v : Value} {kind : Kind} {next : Option Kind} {name : String} {k n : Nat}

/-- A value that begins with its own length is passed over iff the bytes that it declares are there. -/
theorem skipValue_framed_iff (phase : r.phase = .value) (here : r.kind = some kind)
    (framed : kind.IsFramed) :
    skipValue r = .ok () s ↔ ∃ n, peekLength r = .ok n r ∧ r.pos + n ≤ r.limit ∧
      r.pos + n ≤ r.data.size ∧ s = r.passed n := by
  have sized : valueSize kind = peekLength := by
    rcases framed with rfl | rfl | rfl <;> rfl
  unfold skipValue
  rw [bind_of_ok ((currentKind_eq_ok_iff phase).mpr ⟨here, rfl⟩), get_bind, if_neg (not_not.mpr phase)]
  show (valueSize kind >>= fun n => (take n >>= fun _ => pure ()) >>= fun _ => endValue) r = _ ↔ _
  rw [sized]
  simp only [bind_eq_ok_iff, pure_eq_ok_iff, endValue_eq_ok_iff, take_eq_ok_iff]
  constructor
  · rintro ⟨n, m, peeked, _, _, ⟨_, _, ⟨present, inside, rfl, rfl⟩, -, rfl⟩, rfl⟩
    obtain ⟨-, rfl⟩ := peekLength_eq_ok_iff.mp peeked
    exact ⟨n, peeked, inside, present, rfl⟩
  · rintro ⟨n, peeked, inside, present, rfl⟩
    exact ⟨n, r, peeked, (), _, ⟨_, _, ⟨present, inside, rfl, rfl⟩, trivial, rfl⟩, rfl⟩

/-- The bytes of the length that comes next. -/
theorem get!_of_peekLength (peeked : peekLength r = .ok n r) {i : Nat} {b : UInt8}
    (digit : (digits 4 n)[i]? = some b) : r.data.get! (r.pos + i) = b := by
  obtain ⟨⟨size, isSize, present, front⟩, -⟩ := peekLength_eq_ok_iff.mp peeked
  obtain rfl := isSize.eq_digits
  obtain ⟨inside, rfl⟩ := List.getElem?_eq_some_iff.mp digit
  -- the container may end inside the length, so the bytes are looked at outside of all containers
  have ahead : Reader.Ahead { r with frames := [] } (digits 4 n) := by
    rw [← isSize.length_eq] at present front
    exact ⟨present, present, front⟩
  exact ahead.get! inside

/-- Behind the tag and the name of an element the reader stands before its value, inside a container. -/
theorem readType_stands (read : readType m = .ok next r) :
    m.phase = .type ∧ (∃ f outer, m.frames = f :: outer) ∧ r.frames = m.frames ∧
      ∀ kind, next = some kind → r.phase = .value ∧ r.kind = some kind := by
  have whole := read
  unfold readType at whole
  rw [get_bind, guard_eq_ok_iff, not_not] at whole
  obtain ⟨phase, rest⟩ := whole
  obtain ⟨f, _, head, -⟩ := bind_eq_ok_iff.mp rest
  obtain ⟨outer, frames⟩ := List.head?_eq_some_iff.mp (frame_eq_ok_iff.mp head).1
  refine ⟨phase, ⟨f, outer, frames⟩, ?_⟩
  rcases (readType_eq_ok_iff phase frames).mp read with ⟨rfl, -, -, rfl⟩ | ⟨kind, name, rfl, -, -, rfl⟩
  · exact ⟨rfl, nofun⟩
  · refine ⟨rfl, ?_⟩
    rintro _ ⟨⟩
    exact ⟨rfl, rfl⟩

/-- Behind a value that ends inside its own length comes no element: all bytes of so small a length but the
first are zero, and so is the first if the length is. -/
theorem readType_inside_length (peeked : peekLength r = .ok n r) (few : n < 4)
    (read : readType (r.passed n) = .ok next t) : next = none := by
  obtain ⟨phase, ⟨f, outer, frames⟩, -, -⟩ := readType_stands read
  rcases (readType_eq_ok_iff phase frames).mp read with ⟨rfl, -⟩ | ⟨kind, name, rfl, -, ahead, -⟩
  · rfl
  · have zeros : ∀ n < 4, (digits 4 n)[n]? = some 0 := by decide
    have tag : r.data.get! (r.pos + n) = kind.tag := ahead.get! (i := 0) (Nat.succ_pos _)
    rw [get!_of_peekLength peeked (zeros n few)] at tag
    exact absurd tag.symm kind.tag_ne_zero

/-! ## A search that finds nothing -/

theorem elementAt_of_skipValue (read : readType m = .ok next r) (skipped : skipValue r = .ok () s) :
    elementAt (k + 1) m = elementAt k s := by
  have dropped : (discard readType : Read Unit) m = .ok () r := by
    show (readType >>= fun _ => pure ()) m = _
    rw [bind_of_ok read]
    rfl
  rw [elementAt, bind_of_ok dropped, bind_of_ok skipped]

/-- Behind the value of an element comes the next one. -/
theorem elementAt_succ (reached : elementAt k m = .ok next r) (skipped : skipValue r = .ok () s) :
    elementAt (k + 1) m = readType s := by
  induction k generalizing m with
  | zero => exact elementAt_of_skipValue reached skipped
  | succ k ih =>
    have whole := reached
    rw [elementAt] at whole
    obtain ⟨_, m₁, first, whole⟩ := bind_eq_ok_iff.mp whole
    obtain ⟨found, _, read, last⟩ := bind_eq_ok_iff.mp (show (readType >>= fun _ => pure ()) m = _ from first)
    obtain ⟨-, rfl⟩ := pure_eq_ok_iff.mp last
    obtain ⟨_, m₂, passed, rest⟩ := bind_eq_ok_iff.mp whole
    rw [elementAt_of_skipValue read passed]
    exact ih rest

/-- Whoever comes to an element reads its tag and its name last. -/
theorem exists_readType_of_elementAt (reached : elementAt k m = .ok next r) :
    ∃ s, readType s = .ok next r := by
  induction k generalizing m with
  | zero => exact ⟨m, reached⟩
  | succ k ih =>
    rw [elementAt] at reached
    obtain ⟨_, m₁, -, reached⟩ := bind_eq_ok_iff.mp reached
    obtain ⟨_, m₂, -, rest⟩ := bind_eq_ok_iff.mp reached
    exact ih rest

/-- A search that finds nothing has passed over one element after the other, none of them with the name, and
then has come to the end of the container. -/
theorem findWithin_eq_false {fuel : Nat} (search : findWithin name fuel m = .ok false t) :
    ∃ k, elementAt k m = .ok none t ∧ ∀ i < k, ∃ kind x y, elementAt i m = .ok (some kind) x ∧
      x.name ≠ name ∧ skipValue x = .ok () y := by
  induction fuel generalizing m with
  | zero =>
    rw [findWithin, throw_eq_ok_iff] at search
    exact search.elim
  | succ fuel ih =>
    rw [findWithin, bind_eq_ok_iff] at search
    obtain ⟨next, x, read, rest⟩ := search
    cases next with
    | none =>
      obtain ⟨-, rfl⟩ := pure_eq_ok_iff.mp rest
      exact ⟨0, read, fun i below => absurd below (Nat.not_lt_zero i)⟩
    | some kind =>
      dsimp only at rest
      rw [get_bind] at rest
      by_cases same : x.name = name
      · rw [if_pos same] at rest
        cases (pure_eq_ok_iff.mp rest).1
      · rw [if_neg same] at rest
        obtain ⟨_, y, skipped, rest⟩ := bind_eq_ok_iff.mp rest
        obtain ⟨k, last, before⟩ := ih rest
        refine ⟨k + 1, ?_, fun i below => ?_⟩
        · rw [elementAt_of_skipValue read skipped]
          exact last
        · cases i with
          | zero => exact ⟨kind, x, y, read, same, skipped⟩
          | succ i =>
            rw [elementAt_of_skipValue read skipped]
            exact before i (Nat.lt_of_succ_lt_succ below)

/-! ## Lengths that are too small -/

/-- A document, an array or code with its scope is passed over if the bytes that it declares are there, be
they ever so few; a value that can be read declares no fewer than the least. A reader that stops inside the
length of such a value meets no element there. It may take a byte of that length for the terminator, but only
where the container ends; so in a container that is searched to its end only the last element can have been
cut short in this way, and that only where the container has no room for a value of its kind. -/
theorem framed_of_skipValue (r : Reader) (kind : Kind) (name : String) :
    (r.phase = .value → r.kind = some kind → kind.IsFramed →
      (∀ s, skipValue r = .ok () s ↔ ∃ n, peekLength r = .ok n r ∧ r.pos + n ≤ r.limit ∧
        r.pos + n ≤ r.data.size ∧ s = r.passed n) ∧
      (∀ v s, value r = .ok v s →
        ∃ n, peekLength r = .ok n r ∧ kind.leastFrame ≤ n ∧ skipValue r = .ok () (r.passed n)) ∧
      ∀ n next t, peekLength r = .ok n r → n < 4 → readType (r.passed n) = .ok next t →
        next = none ∧ r.pos + n + 1 = r.limit) ∧
    ∀ t, findElement name r = .ok false t →
      ∃ k, elementAt k r = .ok none t ∧ ∀ i < k, ∃ kind x, elementAt i r = .ok (some kind) x ∧
        x.name ≠ name ∧ (kind.IsFramed → ∃ n, peekLength x = .ok n x ∧ (n < 4 → i + 1 = k) ∧
          (i + 1 = k → x.pos + n + 1 = x.limit ∧
            (x.pos + kind.leastFrame < x.limit → kind.leastFrame ≤ n))) := by
  have ends {r t : Reader} {n : Nat} (read : readType (r.passed n) = .ok none t) :
      r.pos + n + 1 = r.limit := by
    obtain ⟨phase, ⟨f, outer, frames⟩, -, -⟩ := readType_stands read
    rcases (readType_eq_ok_iff phase frames).mp read with ⟨-, -, stop, -⟩ | ⟨_, _, absent, -⟩
    · rw [show r.limit = f.stop from Reader.limit_of_cons frames]
      exact stop
    · cases absent
  refine ⟨fun phase here framed => ⟨?_, ?_, ?_⟩, fun t search => ?_⟩
  · exact fun s => skipValue_framed_iff phase here framed
  · intro v s read
    have shorter := sound r.data.size
    obtain ⟨bs, -, derives, rfl, ahead, -⟩ := framed_sound shorter.2.1 shorter.2.2 phase here framed read
    obtain ⟨least, size, rest, eq, isSize⟩ := derives.framed framed
    exact ⟨bs.length, peekLength_of_ahead isSize (eq ▸ ahead), least,
      skipValue_of_derives phase here ahead derives⟩
  · intro n next t peeked few read
    obtain rfl := readType_inside_length peeked few read
    exact ⟨rfl, ends read⟩
  · obtain ⟨k, last, before⟩ := findWithin_eq_false search
    refine ⟨k, last, fun i below => ?_⟩
    obtain ⟨kind, x, y, reached, other, skipped⟩ := before i below
    refine ⟨kind, x, reached, other, fun framed => ?_⟩
    obtain ⟨_, read⟩ := exists_readType_of_elementAt reached
    obtain ⟨phase, here⟩ := (readType_stands read).2.2.2 kind rfl
    obtain ⟨n, peeked, -, -, rfl⟩ := (skipValue_framed_iff phase here framed).mp skipped
    have behind := elementAt_succ reached skipped
    refine ⟨n, peeked, fun few => ?_, fun final => ?_⟩
    · -- another element would begin inside the length
      by_contra more
      obtain ⟨_, _, _, found, -, -⟩ := before (i + 1) (by omega)
      cases readType_inside_length peeked few (behind ▸ found)
    · rw [← final, behind] at last
      have stop := ends last
      exact ⟨stop, by omega⟩

/-- A document whose only field declares three bytes, a fourth of which is taken for the terminator. -/
def shortFrame : ByteArray :=
  ⟨#[11, 0, 0, 0, 3, 97, 0, 3, 0, 0, 0]⟩

/-- A document with code and its scope, which declares its fourteen bytes. -/
def scopedField : ByteArray :=
  ⟨#[22, 0, 0, 0, 15, 97, 0, 14, 0, 0, 0, 1, 0, 0, 0, 0, 5, 0, 0, 0, 0, 0]⟩

theorem framed_of_skipValue_scopedField :
    ∃ m x t, startDocument (.ofBytes scopedField) = .ok () m ∧
      readType m = .ok (some .javaScriptWithScope) x ∧
      (x.phase = .value ∧ x.kind = some .javaScriptWithScope ∧ Kind.IsFramed .javaScriptWithScope) ∧
      findElement "b" m = .ok false t ∧
      (∃ n, peekLength x = .ok n x ∧ Kind.leastFrame .javaScriptWithScope ≤ n ∧
        skipValue x = .ok () (x.passed n)) ∧
      (∃ k, elementAt k m = .ok none t) ∧
      ∃ x t, (do startDocument; readType) (.ofBytes shortFrame) = .ok (some .document) x ∧
        peekLength x = .ok 3 x ∧ readType (x.passed 3) = .ok none t ∧ x.pos + 3 + 1 = x.limit := by
  have start : startDocument (.ofBytes scopedField) = .ok ()
      { data := scopedField, pos := 4, phase := .type, frames := [⟨.document, 22⟩] } := by
    cbv
  have first : readType { data := scopedField, pos := 4, phase := .type, frames := [⟨.document, 22⟩] } =
      .ok (some .javaScriptWithScope)
        { data := scopedField, pos := 7, phase := .value, kind := some .javaScriptWithScope, name := "a",
          frames := [⟨.document, 22⟩] } := by
    cbv
  have read : value
        { data := scopedField, pos := 7, phase := .value, kind := some .javaScriptWithScope, name := "a",
          frames := [⟨.document, 22⟩] } =
      .ok (.javaScriptWithScope "" [])
        { data := scopedField, pos := 21, phase := .type, name := "a", frames := [⟨.document, 22⟩] } := by
    cbv
  have search : findElement "b"
        { data := scopedField, pos := 4, phase := .type, frames := [⟨.document, 22⟩] } =
      .ok false
        { data := scopedField, pos := 22, phase := .endOfDocument, name := "a",
          frames := [⟨.document, 22⟩] } := by
    cbv
  have short : (do startDocument; readType) (.ofBytes shortFrame) =
      .ok (some .document)
        { data := shortFrame, pos := 7, phase := .value, kind := some .document, name := "a",
          frames := [⟨.document, 11⟩] } := by
    cbv
  have declared : peekLength
        { data := shortFrame, pos := 7, phase := .value, kind := some .document, name := "a",
          frames := [⟨.document, 11⟩] } =
      .ok 3
        { data := shortFrame, pos := 7, phase := .value, kind := some .document, name := "a",
          frames := [⟨.document, 11⟩] } := by
    cbv
  have ended : readType
        { data := shortFrame, pos := 10, phase := .type, name := "a", frames := [⟨.document, 11⟩] } =
      .ok none
        { data := shortFrame, pos := 11, phase := .endOfDocument, name := "a",
          frames := [⟨.document, 11⟩] } := by
    cbv
  obtain ⟨k, last, -⟩ := (framed_of_skipValue _ .javaScriptWithScope "b").2 _ search
  obtain ⟨-, stop⟩ :=
    ((framed_of_skipValue _ _ "").1 rfl rfl (.inl rfl)).2.2 3 none _ declared (by decide) ended
  exact ⟨_, _, _, start, first, ⟨rfl, rfl, .inr (.inr rfl)⟩, search,
    ((framed_of_skipValue _ _ "").1 rfl rfl (.inr (.inr rfl))).2.1 _ _ read, ⟨k, last⟩,
    _, _, short, declared, ended, stop⟩

/-- The declared three bytes end inside the length itself, its last byte ends the document, and a search comes
to its end. Decoding refuses the length. -/
theorem findElement_shortFrame :
    let m := left startDocument (.ofBytes shortFrame)
    let x := left readType m
    let t := left (findElement "b") m
    let u := left endDocument t
    (x.phase = .value ∧ x.kind = some .document ∧ peekLength x = .ok 3 x ∧ 3 < Kind.leastFrame .document) ∧
      skipValue x = .ok () (x.passed 3) ∧ findElement "b" m = .ok false t ∧ endDocument t = .ok () u ∧
      u.isDone = true ∧ u.pos = 11 ∧ Document.decode shortFrame = .error (.malformed (.length 3)) := by
  refine ⟨⟨?_, ?_, ?_, ?_⟩, ?_, ?_, ?_, ?_, ?_, ?_⟩ <;> cbv

end Read

end DocumentClient
