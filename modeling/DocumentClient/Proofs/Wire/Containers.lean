import DocumentClient.Proofs.Wire.Scalars

/-!
# Entering and leaving containers

The steps of a reader that change more than its offset: the tag and the name of an element, the
terminator, the length at the front of a container, its end.

Results:
1. `readType_eq_ok_iff`: a terminator ends the container where its length says, any other tag is followed
   by a name.
2. `startContainer_eq_ok_iff`, `endDocument_eq_ok_iff`, `endArray_eq_ok_iff`: the ends of a container.
3. `container_iff`: entering a container that holds some elements and leaving it passes over a block of
   these elements, and over nothing else.
-/

namespace DocumentClient

open Outcome Grammar Bytes

namespace Grammar

theorem content_cons (e : Element) (elements : List Element) :
    content (e :: elements) = e.bytes ++ content elements := by
  simp [content]

/-- The bytes are a container of the elements, inside `depth` others. What the container means is left
open, and so is whether it is a document or an array. -/
structure IsContainer (depth : Nat) (elements : List Element) (bytes : List UInt8) : Prop where
  shallow : depth < maxNesting
  block : IsBlock elements bytes
  names : ∀ e ∈ elements, 0 ∉ utf8 e.name
  values : ∀ e ∈ elements, Derives (depth + 1) e.payload e.value

theorem derives_document_iff {depth : Nat} {bytes : List UInt8} {fields : List (String × Value)} :
    Derives depth bytes (.document fields) ↔ ∃ elements, IsContainer depth elements bytes ∧
      fields = firstOfEach (elements.map Element.field) := by
  constructor
  · intro h
    cases h with
    | scalar h => cases h
    | document shallow block names values => exact ⟨_, ⟨shallow, block, names, values⟩, rfl⟩
  · rintro ⟨elements, ⟨shallow, block, names, values⟩, rfl⟩
    exact .document shallow block names values

theorem derives_array_iff {depth : Nat} {bytes : List UInt8} {items : List Value} :
    Derives depth bytes (.array items) ↔ ∃ elements, IsContainer depth elements bytes ∧
      items = elements.map Element.value := by
  constructor
  · intro h
    cases h with
    | scalar h => cases h
    | array shallow block names values => exact ⟨_, ⟨shallow, block, names, values⟩, rfl⟩
  · rintro ⟨elements, ⟨shallow, block, names, values⟩, rfl⟩
    exact .array shallow block names values

end Grammar

/-- Where a reader stands behind the terminator of a container. -/
def Container.endPhase : Container → ReadPhase
  | document => .endOfDocument
  | array => .endOfArray

namespace Reader

/-- The reader with another name in store. -/
def named (r : Reader) (name : String) : Reader :=
  { r with name := name }

/-- The reader before the value of an element, behind `n` bytes of tag and name. -/
def atValue (r : Reader) (n : Nat) (kind : Kind) (name : String) : Reader :=
  { r.advance n with kind := some kind, name := name, phase := .value }

/-- The reader behind the terminator of the container, `n` bytes further. -/
def closed (r : Reader) (container : Container) (n : Nat) : Reader :=
  { r.advance n with kind := none, phase := container.endPhase }

/-- The reader inside a container that ends after `n` bytes. -/
def entered (r : Reader) (container : Container) (n : Nat) : Reader :=
  { r.advance 4 with frames := ⟨container, r.pos + n⟩ :: r.frames, kind := none, phase := .type }

/-- The reader outside the innermost container. -/
def left (r : Reader) : Reader :=
  { r with frames := r.frames.tail, phase := if r.frames.tail.isEmpty then .done else .type }

/-- The reader behind a container of `n` bytes. -/
def behind (r : Reader) (n : Nat) : Reader :=
  { r.advance n with kind := none, phase := if r.frames.isEmpty then .done else .type }

/-- Whether a container may be entered here: a document at the very front, or a value of its kind. -/
def Expects (r : Reader) (container : Container) : Prop :=
  (r.phase = .initial ∧ container = .document) ∨
    (r.phase = .value ∧ r.kind = some container.kind)

/-- The elements and a terminator come next, and with them the innermost container ends. -/
structure Holds (r : Reader) (elements : List Element) : Prop where
  names : ∀ e ∈ elements, 0 ∉ utf8 e.name
  values : ∀ e ∈ elements, Derives r.depth e.payload e.value
  ahead : r.Ahead (content elements)
  ends : r.pos + (content elements).length = r.limit

end Reader

namespace Read

variable {r r' : Reader} {container : Container}

theorem frame_eq_ok_iff {f : Frame} :
    frame r = .ok f r' ↔ r.frames.head? = some f ∧ r' = r := by
  unfold frame
  rw [peek_eq_ok_iff]
  cases r.frames with
  | nil => simp
  | cons head tail => simp

theorem ofTag?_eq_some_iff {b : UInt8} {kind : Kind} : Kind.ofTag? b = some kind ↔ b = kind.tag := by
  constructor
  · intro h
    have found := List.find?_some h
    exact (of_decide_eq_true found).symm
  · rintro rfl
    exact Kind.ofTag?_tag kind

/-- What comes next is the terminator where the container ends, or the tag and name of an element. -/
theorem readType_eq_ok_iff {f : Frame} {outer : List Frame} {next : Option Kind}
    (phase : r.phase = .type) (frames : r.frames = f :: outer) :
    readType r = .ok next r' ↔
      (next = none ∧ r.Ahead [0] ∧ r.pos + 1 = f.stop ∧ r' = r.closed f.container 1) ∨
      ∃ kind name, next = some kind ∧ 0 ∉ utf8 name ∧ r.Ahead (header kind name) ∧
        r' = r.atValue (header kind name).length kind name := by
  have innermost : frame r = .ok f r := frame_eq_ok_iff.mpr ⟨by rw [frames]; rfl, rfl⟩
  unfold readType
  rw [get_bind, guard_eq_ok_iff]
  dsimp only
  rw [bind_of_ok innermost, bind_eq_ok_iff]
  constructor
  · rintro ⟨-, b, _, hb, h⟩
    obtain ⟨_, rfl, ahead, rfl⟩ := (accepts_byte _ _ _).mp hb
    rw [get_bind] at h
    split at h
    · next zero =>
      subst zero
      simp only [bind_eq_ok_iff, guard_eq_ok_iff, modify_eq_ok_iff, pure_eq_ok_iff, not_not] at h
      obtain ⟨stop, _, _, rfl, rfl, rfl⟩ := h
      exact .inl ⟨rfl, ahead, stop, rfl⟩
    · cases hk : Kind.ofTag? b with
      | none =>
        rw [hk] at h
        exact absurd h (by simp [throw_eq_ok_iff])
      | some kind =>
        obtain rfl := ofTag?_eq_some_iff.mp hk
        rw [hk] at h
        simp only [bind_eq_ok_iff, modify_eq_ok_iff, pure_eq_ok_iff] at h
        obtain ⟨name, _, hn, _, _, rfl, rfl, rfl⟩ := h
        obtain ⟨_, ⟨free⟩, behind, rfl⟩ := (accepts_zeroEnded _ _ _).mp hn
        refine .inr ⟨kind, name, rfl, free, ahead.append behind, ?_⟩
        rw [Reader.advance_advance, ← List.length_append]
        rfl
  · rintro (⟨rfl, ahead, stop, rfl⟩ | ⟨kind, name, rfl, free, ahead, rfl⟩)
    · refine ⟨not_not.mpr phase, 0, _, (accepts_byte _ _ _).mpr ⟨[0], rfl, ahead, rfl⟩, ?_⟩
      rw [get_bind, if_pos rfl, guard_eq_ok_iff]
      exact ⟨not_not.mpr stop, rfl⟩
    · have parts : r.Ahead ([kind.tag] ++ (utf8 name ++ [0])) := ahead
      have text := (accepts_zeroEnded _ _ _).mpr ⟨_, .mk free, parts.right, rfl⟩
      refine ⟨not_not.mpr phase, kind.tag, _, (accepts_byte _ _ _).mpr ⟨_, rfl, parts.left, rfl⟩, ?_⟩
      rw [get_bind, if_neg kind.tag_ne_zero, Kind.ofTag?_tag]
      dsimp only
      rw [bind_of_ok text, Reader.advance_advance, ← List.length_append]
      rfl

/-- Entering a container, once it is known that one may be entered here. -/
theorem enter_eq_ok_iff {u : Unit} :
    (do
      if maxNesting ≤ r.depth then throw Fault.nestingTooDeep
      let size ← length minDocumentSize
      if maxDocumentSize < size then throw Fault.documentTooLarge
      if r.limit < r.pos + size then
        throw (Fault.malformed (.containerLength container.kind r.pos size (r.limit - r.pos)))
      modify fun s =>
        { s with frames := ⟨container, r.pos + size⟩ :: s.frames, kind := none, phase := .type } :
      Read Unit) r = .ok u r' ↔
      r.depth < maxNesting ∧ ∃ size n, IsLength size n ∧ minDocumentSize ≤ n ∧
        n ≤ maxDocumentSize ∧ r.Ahead size ∧ r.pos + n ≤ r.limit ∧ r' = r.entered container n := by
  simp only [bind_eq_ok_iff, guard_eq_ok_iff, modify_eq_ok_iff, not_le, not_lt]
  constructor
  · rintro ⟨depth, n, _, h, most, room, rfl⟩
    obtain ⟨size, ⟨isSize, least⟩, ahead, rfl⟩ := (accepts_length _ _ _ _).mp h
    refine ⟨depth, size, n, isSize, least, most, ahead, room, ?_⟩
    rw [isSize.length_eq]
    rfl
  · rintro ⟨depth, size, n, isSize, least, most, ahead, room, rfl⟩
    refine ⟨depth, n, _, (accepts_length _ _ _ _).mpr ⟨size, ⟨isSize, least⟩, ahead, rfl⟩, most, room, ?_⟩
    rw [isSize.length_eq]
    rfl

theorem startContainer_eq_ok_iff {u : Unit} :
    startContainer container r = .ok u r' ↔
      r.Expects container ∧ r.depth < maxNesting ∧ ∃ size n, IsLength size n ∧
        minDocumentSize ≤ n ∧ n ≤ maxDocumentSize ∧ r.Ahead size ∧ r.pos + n ≤ r.limit ∧
        r' = r.entered container n := by
  rw [← enter_eq_ok_iff (u := u), Reader.Expects]
  unfold startContainer
  rw [get_bind]
  cases phase : r.phase with
  | initial =>
    dsimp only
    rw [guard_eq_ok_iff]
    simp
  | value =>
    dsimp only
    rw [bind_eq_ok_iff]
    constructor
    · rintro ⟨_, _, h, rest⟩
      obtain ⟨here, rfl⟩ := expectKind_eq_ok_iff.mp h
      exact ⟨.inr ⟨rfl, here⟩, rest⟩
    · rintro ⟨⟨absent, -⟩ | ⟨-, here⟩, rest⟩
      · cases absent
      · exact ⟨(), r, expectKind_eq_ok_iff.mpr ⟨here, rfl⟩, rest⟩
  | type | endOfDocument | endOfArray | done =>
    simp [bind_eq_ok_iff, throw_eq_ok_iff]

theorem endContainer_eq_ok_iff {u : Unit} : endContainer r = .ok u r' ↔ r' = r.left := by
  unfold endContainer
  rw [modify_eq_ok_iff, eq_comm]
  rfl

theorem endDocument_eq_ok_iff {u : Unit} :
    endDocument r = .ok u r' ↔ r.phase = .endOfDocument ∧ r' = r.left := by
  unfold endDocument
  rw [get_bind, guard_eq_ok_iff, not_not]
  exact and_congr_right fun _ => endContainer_eq_ok_iff

theorem endArray_eq_ok_iff {u : Unit} :
    endArray r = .ok u r' ↔ r.phase = .endOfArray ∧ r' = r.left := by
  unfold endArray
  rw [get_bind, guard_eq_ok_iff, not_not]
  exact and_congr_right fun _ => endContainer_eq_ok_iff

/-! ## Documents and arrays -/

theorem documentOf_eq_ok_iff {fields : Document → Read Document} {doc : Document} :
    documentOf fields r = .ok doc r' ↔ ∃ m m', startContainer .document r = .ok () m ∧
      fields .empty m = .ok doc m' ∧ m'.phase = .endOfDocument ∧ r' = m'.left := by
  unfold documentOf startDocument
  simp only [bind_eq_ok_iff, endDocument_eq_ok_iff, pure_eq_ok_iff]
  constructor
  · intro h
    rcases h with ⟨_, m, start, _, m', inner, _, _, ⟨phase, rfl⟩, rfl, rfl⟩
    exact ⟨m, m', start, inner, phase, rfl⟩
  · intro h
    rcases h with ⟨m, m', start, inner, phase, rfl⟩
    exact ⟨(), m, start, doc, m', inner, (), _, ⟨phase, rfl⟩, rfl, rfl⟩

theorem arrayOf_eq_ok_iff {items : Array Value → Read (Array Value)} {values : List Value} :
    arrayOf items r = .ok values r' ↔ ∃ m m', startContainer .array r = .ok () m ∧
      items #[] m = .ok values.toArray m' ∧ m'.phase = .endOfArray ∧ r' = m'.left := by
  unfold arrayOf startArray
  simp only [bind_eq_ok_iff, endArray_eq_ok_iff, pure_eq_ok_iff]
  constructor
  · intro h
    rcases h with ⟨_, m, start, _, m', inner, _, _, ⟨phase, rfl⟩, rfl, rfl⟩
    exact ⟨m, m', start, inner, phase, rfl⟩
  · intro h
    rcases h with ⟨m, m', start, inner, phase, rfl⟩
    exact ⟨(), m, start, _, m', inner, (), _, ⟨phase, rfl⟩, rfl, rfl⟩

/-! ## Code with a scope -/

theorem peekLength_eq_ok_iff {n : Nat} :
    peekLength r = .ok n r' ↔ (∃ size, IsLength size n ∧ r.pos + 4 ≤ r.data.size ∧
      r.data.extract r.pos (r.pos + 4) = size.toByteArray) ∧ r' = r := by
  unfold peekLength
  rw [peek_eq_ok_iff]
  apply and_congr_left
  intro _
  dsimp only
  constructor
  · intro h
    split at h
    · exact absurd h (by simp)
    · split at h
      · exact absurd h (by simp)
      · next present nonneg =>
        injection h with h
        subst h
        have same := toByteArray_toList (r.data.extract r.pos (r.pos + 4))
        refine ⟨_, isLength_iff.mpr ⟨?_, ?_⟩, by omega, same.symm⟩
        · rw [Array.length_toList, ByteArray.size_data, ByteArray.size_extract]
          omega
        · rw [same]
          omega
  · rintro ⟨size, isSize, present, eq⟩
    obtain ⟨len, word⟩ := isLength_iff.mp isSize
    rw [if_neg (by omega), eq, word, if_neg (by omega), Int.toNat_natCast]

theorem scopedCodeOf_eq_ok_iff {fields : Document → Read Document} {code : String} {scope : Document} :
    scopedCodeOf fields r = .ok (code, scope) r' ↔
      r.phase = .value ∧ r.kind = some .javaScriptWithScope ∧ ∃ size text block s,
        IsLength size (size ++ text ++ block).length ∧ IsText text code ∧
        r.Ahead (size ++ text ++ block) ∧
        peekLength (r.advance (size ++ text).length) =
          .ok block.length (r.advance (size ++ text).length) ∧
        documentOf fields { data := block.toByteArray, outerDepth := r.depth } = .ok scope s ∧
        r' = r.passed (size ++ text ++ block).length := by
  unfold scopedCodeOf
  simp only [bind_eq_ok_iff, beginValue_eq_ok_iff, get_eq_ok_iff]
  constructor
  · rintro ⟨_, m, ⟨phase, here, rest⟩, _, _, ⟨rfl, rfl⟩, total, _, hs, _, _, ht, n, _, hp, bytes, _,
      hb, _, _, ⟨rfl, rfl⟩, h⟩
    subst m
    -- total length, code, and then the scope, whose length is peeked at before it is taken
    obtain ⟨size, ⟨isSize, -⟩, ahead, rfl⟩ := (accepts_length _ _ _ _).mp hs
    obtain ⟨text, isText, next, rfl⟩ := (accepts_text _ _ _).mp ht
    obtain ⟨peeked, rfl⟩ := peekLength_eq_ok_iff.mp hp
    obtain ⟨block, ⟨rfl, rfl⟩, last, rfl⟩ := (accepts_take _ _ _ _).mp hb
    have place : (r.advance size.length).advance text.length = r.advance (size ++ text).length := by
      rw [Reader.advance_advance, List.length_append]
    rw [place] at hp last h
    cases hd : documentOf fields { data := block.toByteArray, outerDepth := r.depth } with
    | error fault s =>
      simp only [Reader.advance_depth, hd, throw_eq_ok_iff] at h
    | ok found s =>
      simp only [Reader.advance_depth, hd, bind_eq_ok_iff, guard_eq_ok_iff, endValue_eq_ok_iff,
        pure_eq_ok_iff, not_not, Prod.mk.injEq] at h
      obtain ⟨counts, _, _, rfl, ⟨rfl, rfl⟩, rfl⟩ := h
      rw [Reader.advance_advance, ← List.length_append, Reader.advance_pos, Nat.add_sub_cancel_left]
        at counts
      refine ⟨phase, here, size, text, block, s, counts ▸ isSize, isText, ?_, hp, hd, ?_⟩
      · exact (ahead.append next).append last
      · rw [Reader.advance_advance, ← List.length_append]
        rfl
  · rintro ⟨phase, here, size, text, block, s, isSize, isText, ahead, peeked, inner, rfl⟩
    have place : (r.advance size.length).advance text.length = r.advance (size ++ text).length := by
      rw [Reader.advance_advance, List.length_append]
    refine ⟨(), r, ⟨phase, here, rfl⟩, r, r, ⟨rfl, rfl⟩, _, _,
      (accepts_length _ _ _ _).mpr ⟨size, ⟨isSize, ?_⟩, ahead.left.left, rfl⟩, code, _,
      (accepts_text _ _ _).mpr ⟨text, isText, ahead.left.right, rfl⟩, ?_⟩
    · rw [List.append_assoc, List.length_append, isSize.length_eq]
      omega
    rw [place]
    refine ⟨_, _, peeked, _, _, (accepts_take _ _ _ _).mpr ⟨block, ⟨rfl, rfl⟩, ahead.right, rfl⟩,
      _, _, ⟨rfl, rfl⟩, ?_⟩
    simp only [Reader.advance_depth, inner, bind_eq_ok_iff, guard_eq_ok_iff, endValue_eq_ok_iff,
      pure_eq_ok_iff, not_not]
    rw [Reader.advance_advance, ← List.length_append, Reader.advance_pos, Nat.add_sub_cancel_left]
    exact ⟨rfl, (), _, rfl, trivial, rfl⟩

/-! ## What a container holds -/

theorem length_block {elements : List Element} {bytes : List UInt8} (block : IsBlock elements bytes) :
    bytes.length = 4 + (content elements).length := by
  obtain ⟨size, isSize, eq⟩ := block.layout
  rw [eq, List.length_append, isSize.length_eq]

/-- Entering a container that holds some elements is having a block of these elements ahead. -/
theorem container_iff {m : Reader} {elements : List Element} :
    startContainer container r = .ok () m ∧ m.Holds elements ↔
      r.Expects container ∧ r.depth < maxNesting ∧ ∃ bs, IsBlock elements bs ∧ r.Ahead bs ∧
        (∀ e ∈ elements, 0 ∉ utf8 e.name) ∧
        (∀ e ∈ elements, Derives (r.depth + 1) e.payload e.value) ∧
        m = r.entered container bs.length := by
  rw [startContainer_eq_ok_iff]
  constructor
  · intro h
    rcases h with ⟨⟨expects, shallow, size, n, isSize, least, most, ahead, room, rfl⟩, names, values, inner, ends⟩
    -- the container ends where its length says, so it is as long as its elements
    have total : (size ++ content elements).length = n := by
      have here : r.pos + 4 + (content elements).length = r.pos + n := ends
      rw [List.length_append, isSize.length_eq]
      omega
    subst total
    refine ⟨expects, shallow, size ++ content elements,
      ⟨⟨size, isSize, rfl⟩, least, most⟩, ?_, names, values, rfl⟩
    have pos : (r.advance size.length).pos = r.pos + 4 := by rw [Reader.advance_pos, isSize.length_eq]
    apply ahead.append
    refine inner.transfer (s := r.advance size.length) rfl pos ?_
    rw [pos, Reader.advance_limit]
    exact Nat.le_trans (Nat.le_of_eq ends) room
  · intro h
    rcases h with ⟨expects, shallow, bs, block, ahead, names, values, rfl⟩
    obtain ⟨size, isSize, eq⟩ := block.layout
    have parts : r.Ahead (size ++ content elements) := eq ▸ ahead
    have ends : r.pos + 4 + (content elements).length = r.pos + bs.length := by
      rw [length_block block, Nat.add_assoc]
    refine ⟨⟨expects, shallow, size, bs.length, isSize, block.least, block.most, parts.left, ahead.inside, rfl⟩,
      names, values, ?_, ends⟩
    exact parts.right.transfer rfl (by rw [isSize.length_eq]; rfl) (Nat.le_of_eq ends)

theorem left_closed {elements : List Element} {bs : List UInt8} (block : IsBlock elements bs)
    (name : String) :
    (((r.entered container bs.length).closed container (content elements).length).named name).left =
      (r.behind bs.length).named name := by
  rw [length_block block]
  unfold Reader.left Reader.named Reader.closed Reader.entered Reader.behind Reader.advance
  simp [Nat.add_assoc]

end Read

end DocumentClient
