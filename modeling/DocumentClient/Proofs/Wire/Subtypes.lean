import DocumentClient.Proofs.Wire.Fields

/-!
# Two layouts of binary data

Binary data of the old subtype repeats its length behind the subtype. A writer looks at the subtype to choose
the layout, a reader has only the byte of the subtype. The two agree unless another subtype has the byte of
the old one, and there are two of these: `reserved 2` and `userDefined 2`. Their data is written without the
inner length and read as if there were one: its first four bytes are taken for the length of the rest.

Results:
1. `Binary.written_of_write`: what is written of binary data, wherever the writer stands.
2. `Binary.read_iff`: what a reader makes of it.
3. `Binary.read_of_write`: which data comes back, and what comes back of the other.
-/

namespace DocumentClient

open Outcome Grammar Bytes

/-! ## What is written -/

namespace Writer

variable {w m : Writer} {kind : Kind}

/-- The bytes in the innermost open container, or outside every container if none is open. -/
def written (w : Writer) : List UInt8 :=
  match w.containers with
  | [] => w.base.data.toList
  | container :: _ => container.body.data.toList

theorem written_append (w : Writer) (bytes : ByteArray) :
    (w.append bytes).written = w.written ++ bytes.data.toList := by
  rcases w with ⟨base, _ | ⟨⟨body, index⟩, outer⟩, phase, name⟩
  · exact toList_append _ _
  · exact toList_append _ _

theorem written_add (w : Writer) (bs : List UInt8) : (w.add bs).written = w.written ++ bs := by
  rw [add, written_append, List.toList_data_toByteArray]

/-- A writer that begins a value adds its tag and a name. -/
theorem written_of_beginValue (h : Write.beginValue kind w = .ok () m) :
    ∃ name, m.written = w.written ++ header kind name := by
  have bytes (name : String) :
      ((ByteArray.empty.push kind.tag ++ name.toUTF8).push 0).data.toList = header kind name := by
    simp [header, utf8]
  obtain ⟨base, containers, phase, pending⟩ := w
  unfold Write.beginValue at h
  rw [get_bind] at h
  dsimp only at h
  split at h
  · cases pending with
    | none => cases h
    | some name =>
      dsimp only at h
      rw [set_bind] at h
      obtain rfl := modify_eq_ok_iff.mp h
      exact ⟨name, by rw [written_append, bytes]; rfl⟩
  · next body index outer =>
    rw [set_bind] at h
    obtain rfl := modify_eq_ok_iff.mp h
    exact ⟨toString index, by rw [written_append, bytes]; rfl⟩
  · cases h

end Writer

namespace Binary

variable {data back : Binary} {w w' : Writer} {r r' : Reader}

/-- A writer that accepts binary data adds a tag, a name and the layout of the data, wherever it stands. -/
theorem written_of_write (wrote : Write.binary data w = .ok () w') :
    (Value.binary data).Writable 0 ∧
      ∃ name, w'.written = w.written ++ (header .binary name ++ binaryLayout data) := by
  obtain ⟨rest, same, ends⟩ := Write.exists_finishes_binary data
  have write : (Write.beginValue .binary >>= fun _ => rest) w = .ok () w' := same ▸ wrote
  obtain ⟨_, m, begun, h⟩ := bind_eq_ok_iff.mp write
  obtain ⟨writable, rfl⟩ := (ends m w').mp h
  obtain ⟨name, before⟩ := Writer.written_of_beginValue begun
  refine ⟨writable, name, ?_⟩
  show (m.add (binaryLayout data)).written = _
  rw [Writer.written_add, before, List.append_assoc]

end Binary

/-! ## What is read of it -/

namespace BinarySubtype

/-- Whether the byte of a subtype announces the layout that data of the subtype has. -/
def TellsLayout (subtype : BinarySubtype) : Prop :=
  subtype = .binaryOld ↔ subtype.toByte = 2

instance (subtype : BinarySubtype) : Decidable subtype.TellsLayout :=
  inferInstanceAs (Decidable (_ ↔ _))

/-- Only two subtypes have the byte of another layout. -/
theorem not_tellsLayout_iff {subtype : BinarySubtype} :
    ¬ subtype.TellsLayout ↔ subtype = .reserved 2 ∨ subtype = .userDefined 2 := by
  cases subtype <;> simp [TellsLayout, toByte]

theorem isCanonical_ofByte (b : UInt8) : (ofByte b).IsCanonical := by
  rw [IsCanonical, toByte_ofByte]

end BinarySubtype

namespace Read

variable {kind : Kind} {as bs : List UInt8} {r : Reader}

/-- Two values of one kind that lie at one place have the same bytes. -/
theorem Measures.unique (ha : Measures kind as) (hb : Measures kind bs) (left : r.Ahead as)
    (right : r.Ahead bs) : as = bs := by
  obtain ⟨k, n, size, total⟩ := ha r left
  obtain ⟨k', n', size', total'⟩ := hb r right
  rw [size] at size'
  injection size' with counts readers
  have places : r.pos + k = r.pos + k' := congrArg (fun s => s.pos) readers
  exact left.unique right (by omega)

end Read

namespace Binary

variable {data back : Binary} {w w' : Writer} {r r' : Reader}

/-- Data as its byte tells it. -/
def relabelled (data : Binary) : Binary :=
  ⟨.ofByte data.subtype.toByte, data.bytes⟩

/-- Where the byte tells the layout, data is written as the reader will label it. -/
theorem scalar_relabelled (writable : (Value.binary data).Writable 0) (tells : data.subtype.TellsLayout) :
    Scalar (binaryLayout data) (.binary data.relabelled) := by
  have old : data.relabelled.subtype = .binaryOld ↔ data.subtype = .binaryOld :=
    Read.ofByte_eq_binaryOld_iff.trans tells.symm
  have layout : binaryLayout data.relabelled = binaryLayout data := by
    simp only [binaryLayout, old]
    simp only [relabelled, BinarySubtype.toByte_ofByte]
  have fits : (Value.binary data.relabelled).Writable 0 := by
    simp only [Value.Writable, old]
    exact writable
  rw [← layout]
  exact scalar_binaryLayout fits (BinarySubtype.isCanonical_ofByte _)

/-- Where the byte tells another layout, the front of the data is the length of what is read. -/
theorem scalar_misread_iff (back : Binary) (writable : (Value.binary data).Writable 0)
    (misleads : ¬ data.subtype.TellsLayout) :
    Scalar (binaryLayout data) (.binary back) ↔ back.subtype = .binaryOld ∧
      data.bytes.data.toList = digits 4 back.bytes.size ++ back.bytes.data.toList := by
  obtain ⟨subtype, bytes⟩ := data
  have other : subtype ≠ .binaryOld ∧ subtype.toByte = 2 := by
    obtain rfl | rfl := BinarySubtype.not_tellsLayout_iff.mp misleads <;> decide
  obtain ⟨different, two⟩ := other
  have layout : binaryLayout ⟨subtype, bytes⟩ =
      digits 4 bytes.data.toList.length ++ 2 :: bytes.data.toList := by
    simp [binaryLayout, different, two]
  simp only [Value.Writable, if_neg different, ← Document.length_toList] at writable
  rw [layout]
  constructor
  · generalize whole : digits 4 bytes.data.toList.length ++ 2 :: bytes.data.toList = bs
    intro form
    cases form with
    | binary recent size =>
      obtain ⟨-, same⟩ := List.append_inj whole ((length_digits 4 _).trans size.length_eq.symm)
      exact absurd (List.cons.inj same).1.symm recent
    | @binaryOld _ inner rest size isInner =>
      obtain ⟨-, same⟩ := List.append_inj whole ((length_digits 4 _).trans size.length_eq.symm)
      refine ⟨rfl, ?_⟩
      rw [(List.cons.inj same).2, isInner.eq_digits, List.size_toByteArray, List.toList_data_toByteArray]
  · rintro ⟨old, parts⟩
    obtain ⟨_, rest⟩ := back
    obtain rfl := old
    have total : bytes.data.toList.length = 4 + rest.data.toList.length := by
      rw [parts, List.length_append, length_digits]
    have form := Scalar.binaryOld (parts ▸ isLength_digits writable)
      (isLength_digits (n := rest.data.toList.length) (by omega))
    rw [parts, ← Document.length_toList rest]
    rw [toByteArray_toList] at form
    exact form

/-- A reader takes all bytes of binary data, and reads what the grammar says of them. -/
theorem read_iff (writable : (Value.binary data).Writable 0) (phase : r.phase = .value)
    (here : r.kind = some .binary) (ahead : r.Ahead (binaryLayout data)) :
    Read.binary r = .ok back r' ↔
      Scalar (binaryLayout data) (.binary back) ∧ r' = r.passed (binaryLayout data).length := by
  rw [Read.acceptsValue_binary r r' back ahead.nil]
  constructor
  · rintro ⟨-, -, bs, form, front, rfl⟩
    have derived : Derives 0 bs (.binary back) := .scalar form
    have measured : Read.Measures .binary bs := Read.valueSize_of_derives derived
    obtain rfl := measured.unique (Read.measures_binary writable) front ahead
    exact ⟨form, rfl⟩
  · rintro ⟨form, rfl⟩
    exact ⟨phase, here, _, form, ahead, rfl⟩

/-- Binary data that a writer accepts comes back from a reader with its bytes and the byte of its subtype, if
that byte tells the layout. Data of the two other subtypes comes back without its first four bytes if these
are the length of the rest, and not at all if they are not. -/
theorem read_of_write (wrote : Write.binary data w = .ok () w') :
    (∃ name, w'.written = w.written ++ (header .binary name ++ binaryLayout data)) ∧
      ∀ r : Reader, r.phase = .value → r.kind = some .binary → r.Ahead (binaryLayout data) →
        (data.subtype.TellsLayout → ∃ back, back.bytes = data.bytes ∧
          back.subtype.toByte = data.subtype.toByte ∧
          Read.binary r = .ok back (r.passed (binaryLayout data).length)) ∧
        (data.subtype = .reserved 2 ∨ data.subtype = .userDefined 2 → ∀ back r',
          Read.binary r = .ok back r' ↔ back.subtype = .binaryOld ∧
            data.bytes.data.toList = digits 4 back.bytes.size ++ back.bytes.data.toList ∧
            r' = r.passed (binaryLayout data).length) := by
  obtain ⟨writable, added⟩ := written_of_write wrote
  refine ⟨added, fun r phase here ahead => ⟨fun tells => ?_, fun misleads back r' => ?_⟩⟩
  · exact ⟨data.relabelled, rfl, BinarySubtype.toByte_ofByte _,
      (read_iff writable phase here ahead).mpr ⟨scalar_relabelled writable tells, rfl⟩⟩
  · have form := scalar_misread_iff back writable (BinarySubtype.not_tellsLayout_iff.mpr misleads)
    rw [read_iff writable phase here ahead, form, and_assoc]

/-- Writes a document with nothing but the data. -/
def writeAlone (data : Binary) : Write Unit := do
  Write.startDocument
  Write.name "b"
  Write.binary data
  Write.endDocument

/-- Reads the data of such a document. -/
def readAlone : Read Binary := do
  Read.startDocument
  let _ ← Read.readType
  Read.binary

/-- A document with three bytes under a subtype that is not the one its byte stands for. -/
def threeBytes : ByteArray :=
  ⟨#[16, 0, 0, 0, 5, 98, 0, 3, 0, 0, 0, 5, 1, 2, 3, 0]⟩

theorem read_of_write_threeBytes :
    ∃ w w' r, (do Write.startDocument; Write.name "b") {} = .ok () w ∧
      Write.binary ⟨.userDefined 5, ⟨#[1, 2, 3]⟩⟩ w = .ok () w' ∧
      (do Read.startDocument; Read.readType) (.ofBytes threeBytes) = .ok (some .binary) r ∧
      ∃ back r', back.bytes = ⟨#[1, 2, 3]⟩ ∧ back.subtype.toByte = 5 ∧ Read.binary r = .ok back r' := by
  have named : (do Write.startDocument; Write.name "b") {} =
      .ok () { containers := [{}], phase := .value, pendingName := some "b" } := by
    cbv
  have wrote : Write.binary ⟨.userDefined 5, ⟨#[1, 2, 3]⟩⟩
        { containers := [{}], phase := .value, pendingName := some "b" } =
      .ok () { containers := [{ body := ⟨#[5, 98, 0, 3, 0, 0, 0, 5, 1, 2, 3]⟩ }], phase := .name } := by
    cbv
  have before : (do Read.startDocument; Read.readType) (.ofBytes threeBytes) =
      .ok (some .binary)
        { data := threeBytes, pos := 7, phase := .value, kind := some .binary, name := "b",
          frames := [⟨.document, 16⟩] } := by
    cbv
  have ahead : Reader.Ahead
      { data := threeBytes, pos := 7, phase := .value, kind := some .binary, name := "b",
        frames := [⟨.document, 16⟩] } (binaryLayout ⟨.userDefined 5, ⟨#[1, 2, 3]⟩⟩) :=
    ⟨by decide, by decide, by decide⟩
  obtain ⟨back, bytes, subtype, read⟩ := ((read_of_write wrote).2 _ rfl rfl ahead).1 (by decide)
  exact ⟨_, _, _, named, wrote, before, back, _, bytes, subtype, read⟩

/-- What is written of five bytes under `reserved 2`. -/
def misleading : ByteArray :=
  ⟨#[18, 0, 0, 0, 5, 98, 0, 5, 0, 0, 0, 2, 1, 0, 0, 0, 88, 0]⟩

/-- What is written of three bytes under `userDefined 2`. -/
def unreadable : ByteArray :=
  ⟨#[16, 0, 0, 0, 5, 98, 0, 3, 0, 0, 0, 2, 1, 2, 3, 0]⟩

/-- Of the five bytes one comes back, and the three bytes do not come back at all. -/
theorem readAlone_misleading :
    (writeAlone ⟨.reserved 2, ⟨#[1, 0, 0, 0, 88]⟩⟩ {} = .ok () { base := misleading, phase := .done } ∧
      readAlone (.ofBytes misleading) = .ok ⟨.binaryOld, ⟨#[88]⟩⟩
        { data := misleading, pos := 17, phase := .type, name := "b", frames := [⟨.document, 18⟩] }) ∧
    writeAlone ⟨.userDefined 2, ⟨#[1, 2, 3]⟩⟩ {} = .ok () { base := unreadable, phase := .done } ∧
      readAlone (.ofBytes unreadable) = .error (.malformed (.innerLength 197121 3))
        { data := unreadable, pos := 16, phase := .value, kind := some .binary, name := "b",
          frames := [⟨.document, 16⟩] } := by
  refine ⟨⟨?_, ?_⟩, ?_, ?_⟩ <;> cbv

end Binary

end DocumentClient
