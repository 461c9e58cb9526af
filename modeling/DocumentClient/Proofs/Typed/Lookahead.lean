import DocumentClient.Proofs.Typed.Registry
import DocumentClient.Proofs.Wire.Consuming

/-!
# Looking ahead for the kind of a reference system

A reference system of either kind is read twice. The first time its values are passed over until the type is
found, the second time they are read by the codec of the kind that the type tells. The two may differ in what
they look at: a second value under a name is passed over both times, the properties only the first time. So
the bytes need not be a document for either of them.

Whatever the codec of a kind reads, the search finds the type of this kind in it: each field that the codec has
read stands where the search has passed over it. Nothing is asked of the reader or of the bytes.

Results:
1. `consumes_crsField`, `consumes_linkedCrs`, `consumes_namedCrs`: a field of a reference system is consumed as
   one value, and so is the whole.
2. `crsKind_iff`: when the kind is told, and that the reader is back then.
3. `findWithin_of_foldWithin`: the search finds the type that the loop over the fields reads; induction on the
   bound of both.
4. `crsKind_of_crsOf`: the kind that is told is the one that is read.
5. `Codec.decode_crs_iff`: a system of either kind is read exactly if the codec of the kind reads it.
-/

namespace DocumentClient

open Outcome

namespace Read

variable {π : Type} {kind : CrsKind} {property : π → String → Read π} {r s m x y : Reader} {f : Frame}
  {outer : List Frame} {name : String} {fuel : Nat}

/-! ## A field as one value -/

theorem consumes_string : Consumes string :=
  consumes_of_acceptsValue acceptsValue_string fun _ => rfl

theorem consumes_firstText (seen : Option String) : Consumes (firstText seen) := by
  cases seen with
  | some text => exact consumes_skipValue.map (g := fun _ => some text)
  | none => exact consumes_string.map

theorem consumes_linkedProperty (properties : LinkedProperties) (name : String) :
    Consumes (linkedProperty properties name) :=
  .ite (consumes_firstText _).map (.ite (consumes_firstText _).map (consumes_throw _))

theorem consumes_namedProperty (found : Option String) (name : String) :
    Consumes (namedProperty found name) :=
  .ite (consumes_firstText found) (consumes_throw _)

/-- A document whose elements are each consumed. -/
theorem consumes_folded {σ α : Type} {step : σ → String → Read σ} {k : σ → Read α}
    (consumes : ∀ s name, Consumes (step s name)) (start : σ)
    (still : ∀ found r a s, k found r = .ok a s → s = r) :
    Consumes (do
      startDocument
      let found ← foldElements step start
      endDocument
      k found) :=
  consumes_container (finishes_foldElements consumes start) (fun _ _ left => (endDocument_eq_ok_iff.mp left).2)
    still

/-- What follows the end of a field does not move. -/
theorem still_pure {α β : Type} {g : α → β} (a : α) (r : Reader) (b : β) (s : Reader)
    (last : (pure (g a) : Read β) r = .ok b s) : s = r :=
  (pure_eq_ok_iff.mp last).2.symm

theorem consumes_crsField (consumes : ∀ s name, Consumes (property s name)) (fields : CrsFields π)
    (name : String) : Consumes (crsField kind property fields name) := by
  refine .ite (.ite consumes_skipValue.map ?_) (.ite (.ite consumes_skipValue.map ?_) (consumes_throw _))
  · refine consumes_string.bind fun found r b s last => ?_
    exact (pure_eq_ok_iff.mp (guard_eq_ok_iff.mp last).2).2.symm
  · exact consumes_folded consumes fields.properties still_pure

theorem consumes_crsOf (consumes : ∀ s name, Consumes (property s name)) (start : π) :
    Consumes (crsOf kind property start) :=
  consumes_folded (consumes_crsField consumes) _ fun _ _ _ _ last =>
    (pure_eq_ok_iff.mp (guard_eq_ok_iff.mp last).2).2.symm

theorem consumes_linkedCrs : Consumes linkedCrs := by
  refine (consumes_crsOf consumes_linkedProperty {}).bind fun properties r v s last => ?_
  cases there : properties.href with
  | some href =>
    rw [there] at last
    exact (pure_eq_ok_iff.mp last).2.symm
  | none =>
    rw [there] at last
    cases last

theorem consumes_namedCrs : Consumes namedCrs := by
  refine (consumes_crsOf consumes_namedProperty none).bind fun found r v s last => ?_
  cases found with
  | some name => exact (pure_eq_ok_iff.mp last).2.symm
  | none => cases last

/-! ## The search -/

/-- A search stays in the container, over the same bytes. -/
theorem of_findWithin_eq_true (frames : m.frames = f :: outer) (found : findWithin name fuel m = .ok true x) :
    x.data = m.data ∧ x.outerDepth = m.outerDepth ∧ x.Ahead [] := by
  induction fuel generalizing m with
  | zero =>
    rw [findWithin, throw_eq_ok_iff] at found
    exact found.elim
  | succ fuel ih =>
    rw [findWithin] at found
    obtain ⟨next, t, read, rest⟩ := bind_eq_ok_iff.mp found
    rcases readType_cases frames read with ⟨rfl, -, -, -⟩ | ⟨kind, n, label, rfl, rfl, room⟩
    · cases (pure_eq_ok_iff.mp rest).1
    · dsimp only at rest
      rw [get_bind] at rest
      split at rest
      · obtain ⟨-, rfl⟩ := pure_eq_ok_iff.mp rest
        exact ⟨rfl, rfl, room⟩
      · obtain ⟨_, u, skipped, rest⟩ := bind_eq_ok_iff.mp rest
        obtain ⟨bs, -, rfl⟩ := exists_ahead_of_skipValue room skipped
        exact ih (m := (m.atValue n kind label).passed bs.length) frames rest

/-- The kind is told by the first type that comes in the document, and then the reader is back. -/
theorem crsKind_iff : crsKind r = .ok kind s ↔ s = r ∧ ∃ m x y found, startDocument r = .ok () m ∧
    findElement "type" m = .ok true x ∧ string x = .ok found y ∧
    CrsKind.ofDiscriminator? found = some kind := by
  have marked : bookmark r = .ok r.toBookmark r := rfl
  have back {m x y : Reader} {found : String} (entered : startDocument r = .ok () m)
      (searched : findElement "type" m = .ok true x) (read : string x = .ok found y) :
      returnTo r.toBookmark y = .ok () r := by
    obtain ⟨-, -, size, n, -, -, -, -, -, rfl⟩ := startContainer_eq_ok_iff.mp entered
    obtain ⟨data, around, room⟩ := of_findWithin_eq_true rfl searched
    obtain ⟨-, -, bs, -, -, rfl⟩ := (acceptsValue_string x y found room).mp read
    obtain ⟨mark, bytes, depth⟩ := x
    dsimp only at data around
    subst data around
    rfl
  unfold crsKind
  rw [bind_of_ok marked, bind_eq_ok_iff]
  constructor
  · rintro ⟨_, m, entered, rest⟩
    obtain ⟨there, x, searched, rest⟩ := bind_eq_ok_iff.mp rest
    obtain ⟨present, rest⟩ := guard_eq_ok_iff.mp rest
    obtain rfl : there = true := not_not.mp present
    obtain ⟨found, y, read, rest⟩ := bind_eq_ok_iff.mp rest
    rw [bind_of_ok (back entered searched read)] at rest
    cases told : CrsKind.ofDiscriminator? found with
    | none =>
      rw [told] at rest
      cases rest
    | some other =>
      rw [told] at rest
      obtain ⟨rfl, rfl⟩ := pure_eq_ok_iff.mp rest
      exact ⟨rfl, m, x, y, found, entered, searched, read, told⟩
  · rintro ⟨rfl, m, x, y, found, entered, searched, read, told⟩
    refine ⟨(), m, entered, ?_⟩
    rw [bind_of_ok searched, if_neg (not_not.mpr rfl)]
    dsimp only
    rw [bind_of_ok read, bind_of_ok (back entered searched read), told]
    rfl

/-! ## The search finds what is read -/

/-- The name in store makes no difference to the next element. -/
theorem readType_of_named {label : String} {sort : Kind} (frames : m.frames = f :: outer)
    (read : readType (m.named label) = .ok (some sort) x) : readType m = .ok (some sort) x := by
  have phase : m.phase = .type := (readType_stands read).1
  refine (readType_eq_ok_iff phase frames).mpr (.inr ?_)
  rcases (readType_eq_ok_iff (r := m.named label) phase frames).mp read with
    ⟨absent, -⟩ | ⟨_, name, same, free, ahead, rfl⟩
  · cases absent
  · exact ⟨_, name, same, free, ahead.transfer rfl rfl ahead.inside, rfl⟩

/-- The first type that is read is the one that the kind has. -/
theorem string_of_crsField {fields fields' : CrsFields π} (untyped : fields.typed = false)
    (read : crsField kind property fields "type" r = .ok fields' s) :
    ∃ y, string r = .ok kind.discriminator y := by
  unfold crsField at read
  rw [if_pos rfl, if_neg (by simp [untyped])] at read
  obtain ⟨found, y, text, rest⟩ := bind_eq_ok_iff.mp read
  obtain ⟨same, -⟩ := guard_eq_ok_iff.mp rest
  exact ⟨y, not_not.mp same ▸ text⟩

/-- The other fields tell no type. -/
theorem typed_of_crsField {fields fields' : CrsFields π} (other : name ≠ "type")
    (read : crsField kind property fields name r = .ok fields' s) : fields'.typed = fields.typed := by
  unfold crsField at read
  rw [if_neg other] at read
  split at read
  · split at read
    · obtain ⟨_, _, -, last⟩ := bind_eq_ok_iff.mp read
      rw [← (pure_eq_ok_iff.mp last).1]
    · obtain ⟨_, _, -, read⟩ := bind_eq_ok_iff.mp read
      obtain ⟨found, _, -, read⟩ := bind_eq_ok_iff.mp read
      obtain ⟨_, _, -, last⟩ := bind_eq_ok_iff.mp read
      rw [← (pure_eq_ok_iff.mp last).1]
  · cases read

/-- The search finds the type that the loop over the fields reads. Up to there each field has been consumed,
and so has brought the loop to where the search has come to. -/
theorem findWithin_of_foldWithin (consumes : ∀ s name, Consumes (property s name))
    {fields fields' : CrsFields π} {label : String} (frames : m.frames = f :: outer)
    (untyped : fields.typed = false)
    (folded : foldWithin (crsField kind property) fuel fields (m.named label) = .ok fields' s)
    (typed : fields'.typed = true) :
    ∃ x y, findWithin "type" fuel m = .ok true x ∧ string x = .ok kind.discriminator y := by
  induction fuel generalizing m fields label with
  | zero =>
    rw [foldWithin, throw_eq_ok_iff] at folded
    exact folded.elim
  | succ fuel ih =>
    rw [foldWithin] at folded
    obtain ⟨next, x, read, rest⟩ := bind_eq_ok_iff.mp folded
    rcases readType_cases (m := m.named label) frames read with ⟨rfl, -⟩ | ⟨sort, n, name, rfl, rfl, room⟩
    · -- the container has ended without a type
      obtain ⟨rfl, -⟩ := pure_eq_ok_iff.mp rest
      rw [untyped] at typed
      cases typed
    · dsimp only at rest
      rw [get_bind] at rest
      obtain ⟨state, t, stepped, rest⟩ := bind_eq_ok_iff.mp rest
      rw [findWithin, bind_of_ok (readType_of_named frames read)]
      dsimp only
      rw [get_bind]
      by_cases type : name = "type"
      · subst type
        obtain ⟨y, text⟩ := string_of_crsField untyped stepped
        exact ⟨_, y, if_pos rfl ▸ rfl, text⟩
      · have other : ((m.named label).atValue n sort name).name ≠ "type" := type
        rw [if_neg other]
        have inside : m.frames ≠ [] := by simp [frames]
        obtain ⟨bs, label', -, skipped, rfl⟩ := consumes_crsField consumes fields name
          (r := (m.named label).atValue n sort name) rfl inside room stepped
        rw [bind_of_ok skipped]
        exact ih (m := ((m.named label).atValue n sort name).passed bs.length) frames
          ((typed_of_crsField type stepped).trans untyped) rest

/-- The kind that is told ahead is the one whose codec can read the system. -/
theorem crsKind_of_crsOf (consumes : ∀ s name, Consumes (property s name)) {start found : π}
    (read : crsOf kind property start r = .ok found s) : crsKind r = .ok kind r := by
  unfold crsOf at read
  obtain ⟨_, m, entered, read⟩ := bind_eq_ok_iff.mp read
  obtain ⟨fields, t, folded, read⟩ := bind_eq_ok_iff.mp read
  obtain ⟨_, u, -, last⟩ := bind_eq_ok_iff.mp read
  have typed : fields.typed = true := not_not.mp (guard_eq_ok_iff.mp last).1
  have whole := startContainer_eq_ok_iff.mp entered
  obtain ⟨-, -, size, n, -, -, -, -, -, rfl⟩ := whole
  have folded : foldWithin (crsField kind property) _ { properties := start }
      ((r.entered .document n).named r.name) = .ok fields t := folded
  obtain ⟨x, y, searched, text⟩ := findWithin_of_foldWithin consumes rfl rfl folded typed
  exact crsKind_iff.mpr
    ⟨rfl, _, x, y, _, entered, searched, text, CrsKind.ofDiscriminator?_discriminator kind⟩

theorem crsKind_of_linkedCrs {system : LinkedCrs} (read : linkedCrs r = .ok system s) :
    crsKind r = .ok .linked r := by
  obtain ⟨properties, m, read, -⟩ := bind_eq_ok_iff.mp read
  exact crsKind_of_crsOf consumes_linkedProperty read

theorem crsKind_of_namedCrs {system : NamedCrs} (read : namedCrs r = .ok system s) :
    crsKind r = .ok .named r := by
  obtain ⟨found, m, read, -⟩ := bind_eq_ok_iff.mp read
  exact crsKind_of_crsOf consumes_namedProperty read

end Read

/-! ## Codecs -/

namespace Codec

open Coder

variable {registry registry' : Registry} {r s : Reader}

/-- The codec of a part is asked for and reads what it reads by itself. -/
theorem decode_part_iff {inner : Shape} (r s : Reader) (wrap : inner.Carrier → Crs) (system : Crs)
    {read : Codec inner → Read inner.Carrier} {own : Read inner.Carrier} (known : registry.Knows inner) (only : ∀ found, read found = own) :
    (∃ registry', (do
        let found ← codec inner
        return wrap (← atPlace (read found)) : Decode Crs) ⟨r, registry⟩ = .ok system ⟨s, registry'⟩) ↔
      ∃ v, own r = .ok v s ∧ wrap v = system := by
  constructor
  · rintro ⟨registry', whole⟩
    obtain ⟨found, c, asked, whole⟩ := bind_eq_ok_iff.mp whole
    obtain ⟨v, c', taken, last⟩ := bind_eq_ok_iff.mp whole
    obtain ⟨same, there⟩ := pure_eq_ok_iff.mp last
    have here : c.place = r := (codec_eq_ok_iff.mp asked).1
    have taken := (atPlace_eq_ok_iff.mp taken).1
    rw [only, here, there] at taken
    exact ⟨v, taken, same⟩
  · rintro ⟨v, taken, rfl⟩
    obtain ⟨made, registry', looked⟩ := known
    have asked : codec inner ⟨r, registry⟩ = .ok made.codec ⟨r, registry'⟩ :=
      codec_eq_ok_iff.mpr ⟨rfl, made, rfl, looked⟩
    have taken : atPlace (read made.codec) ⟨r, registry'⟩ = .ok v ⟨s, registry'⟩ :=
      atPlace_eq_ok_iff.mpr ⟨only made.codec ▸ taken, rfl⟩
    refine ⟨registry', ?_⟩
    rw [bind_of_ok asked, bind_of_ok taken]
    rfl

/-- There is only one codec of linked systems, and one of named systems. -/
theorem decodeLinked_eq : ∀ found : Codec .linkedCrs, found.decodeLinked = Read.linkedCrs
  | .linkedCrs => rfl

theorem decodeNamed_eq : ∀ found : Codec .namedCrs, found.decodeNamed = Read.namedCrs
  | .namedCrs => rfl

/-- A reference system is read as one of a kind. What is told ahead is the kind that can be read, so nothing
is lost by telling it. -/
theorem decodeCrs_iff {system : Crs} (known : registry.Covers .default) :
    (∃ registry', decodeCrs ⟨r, registry⟩ = .ok system ⟨s, registry'⟩) ↔
      (∃ v, Read.linkedCrs r = .ok v s ∧ .linked v = system) ∨
        ∃ v, Read.namedCrs r = .ok v s ∧ .named v = system := by
  have linked := decode_part_iff r s Crs.linked system (known .linkedCrs ⟨_, _, rfl⟩) decodeLinked_eq
  have named := decode_part_iff r s Crs.named system (known .namedCrs ⟨_, _, rfl⟩) decodeNamed_eq
  have told {kind : CrsKind} (ahead : Read.crsKind r = .ok kind r) :
      atPlace Read.crsKind ⟨r, registry⟩ = .ok kind ⟨r, registry⟩ := atPlace_eq_ok_iff.mpr ⟨ahead, rfl⟩
  unfold decodeCrs
  constructor
  · rintro ⟨registry', whole⟩
    obtain ⟨kind, ⟨place, same⟩, ahead, rest⟩ := bind_eq_ok_iff.mp whole
    obtain ⟨ahead, untouched⟩ := atPlace_eq_ok_iff.mp ahead
    obtain ⟨back, -⟩ := Read.crsKind_iff.mp ahead
    dsimp only at back untouched
    subst back untouched
    cases kind with
    | linked => exact .inl (linked.mp ⟨registry', rest⟩)
    | named => exact .inr (named.mp ⟨registry', rest⟩)
  · rintro (⟨v, read, same⟩ | ⟨v, read, same⟩)
    · rw [bind_of_ok (told (Read.crsKind_of_linkedCrs read))]
      exact linked.mpr ⟨v, read, same⟩
    · rw [bind_of_ok (told (Read.crsKind_of_namedCrs read))]
      exact named.mpr ⟨v, read, same⟩

/-- From whatever place of whatever bytes, a system of unknown kind is read as a linked one exactly if the codec
of linked systems reads it from there, and likewise for named ones; all of the reader is the same behind it. So
nothing is read by both of these codecs. -/
theorem decode_crs_iff (r : Reader) (known : registry.Covers .default) (own : Registry) :
    (∀ v s, (∃ registry', Codec.crs.decode ⟨r, registry⟩ = .ok (.linked v) ⟨s, registry'⟩) ↔
      ∃ own', Codec.linkedCrs.decode ⟨r, own⟩ = .ok v ⟨s, own'⟩) ∧
    (∀ v s, (∃ registry', Codec.crs.decode ⟨r, registry⟩ = .ok (.named v) ⟨s, registry'⟩) ↔
      ∃ own', Codec.namedCrs.decode ⟨r, own⟩ = .ok v ⟨s, own'⟩) ∧
    ¬ ((∃ v c, Codec.linkedCrs.decode ⟨r, own⟩ = .ok v c) ∧ ∃ v c, Codec.namedCrs.decode ⟨r, own⟩ = .ok v c) := by
  have alone {α : Type} {read : Read α} {v : α} {s : Reader} :
      (∃ own', atPlace read ⟨r, own⟩ = .ok v ⟨s, own'⟩) ↔ read r = .ok v s := by
    constructor
    · rintro ⟨own', h⟩
      exact (atPlace_eq_ok_iff.mp h).1
    · exact fun h => ⟨own, atPlace_eq_ok_iff.mpr ⟨h, rfl⟩⟩
  refine ⟨fun v s => ?_, fun v s => ?_, ?_⟩
  · refine (decodeCrs_iff known).trans (Iff.trans ?_ alone.symm)
    simp
  · refine (decodeCrs_iff known).trans (Iff.trans ?_ alone.symm)
    simp
  · rintro ⟨⟨_, ⟨s, _⟩, linked⟩, _, ⟨t, _⟩, named⟩
    have first := Read.crsKind_of_linkedCrs (atPlace_eq_ok_iff.mp linked).1
    have second := Read.crsKind_of_namedCrs (atPlace_eq_ok_iff.mp named).1
    cases first.symm.trans second

end Codec

namespace Crs

/-- A linked system with second properties that do not end and with a second type that has no room for its
text: both are passed over, though they make it no document. -/
def untidyLink : ByteArray :=
  ⟨#[76, 0, 0, 0,
    3, 112, 114, 111, 112, 101, 114, 116, 105, 101, 115, 0, 17, 0, 0, 0,
      2, 104, 114, 101, 102, 0, 2, 0, 0, 0, 117, 0, 0,
    2, 116, 121, 112, 101, 0, 5, 0, 0, 0, 108, 105, 110, 107, 0,
    3, 112, 114, 111, 112, 101, 114, 116, 105, 101, 115, 0, 5, 0, 0, 0, 7,
    2, 116, 121, 112, 101, 0, 0, 0, 0, 0, 0]⟩

theorem decode_crs_iff_untidyLink :
    Registry.default.Covers .default ∧ Document.decode untidyLink = .error (.malformed .openText) ∧
      ∃ s registry', Codec.linkedCrs.decode ⟨.ofBytes untidyLink, .default⟩ = .ok ⟨"u", none⟩ ⟨s, .default⟩ ∧
        s.pos = 76 ∧ s.phase = .done ∧
        Codec.crs.decode ⟨.ofBytes untidyLink, .default⟩ = .ok (.linked ⟨"u", none⟩) ⟨s, registry'⟩ ∧
        ¬ ∃ v c, Codec.namedCrs.decode ⟨.ofBytes untidyLink, .default⟩ = .ok v c := by
  have known : Registry.default.Covers .default := .refl _
  have refused : Document.decode untidyLink = .error (.malformed .openText) := by
    cbv
  have read : Read.linkedCrs (.ofBytes untidyLink) =
      .ok ⟨"u", none⟩ { data := untidyLink, pos := 76, phase := .done, name := "type" } := by
    cbv
  have own : Codec.linkedCrs.decode ⟨.ofBytes untidyLink, .default⟩ =
      .ok ⟨"u", none⟩ ⟨{ data := untidyLink, pos := 76, phase := .done, name := "type" }, .default⟩ :=
    Coder.atPlace_eq_ok_iff.mpr ⟨read, rfl⟩
  obtain ⟨linked, -, apart⟩ := Codec.decode_crs_iff (.ofBytes untidyLink) known .default
  obtain ⟨registry', read⟩ := (linked _ _).mpr ⟨_, own⟩
  exact ⟨known, refused, _, registry', own, rfl, rfl, read, fun named => apart ⟨⟨_, _, own⟩, named⟩⟩

end Crs

end DocumentClient
