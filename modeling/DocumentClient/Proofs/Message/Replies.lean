import DocumentClient.Message.Reply
import DocumentClient.Proofs.Message.Pieces

/-!
# Replies as messages

Reading a reply cuts what follows its fixed part into documents, each of which tells its own size. So the
slices of an accepted reply tile the rest of the message, and their number is the one that the reply
declares.

Results:
1. `Reply.Tiles`: slices that lie one behind the other up to the end of a message.
2. `Reply.rawDocuments_eq_ok_iff`: cutting ends with the slices that tile what is left.
3. `Reply.decode_eq_ok_iff`: which bytes are which reply.
4. `Reply.cut_exactly`: replies are cut exactly, and a reply that was written is cut into the documents it
   was written from.
-/

namespace DocumentClient

open Outcome

namespace Reply

/-- The slices lie one behind the other from an index up to the end, and each tells its own size. -/
inductive Tiles (data : ByteArray) : Nat → List ByteArray → Prop where
  | done : Tiles data data.size []
  | step {pos : Nat} {raw : ByteArray} {rest : List ByteArray} :
      raw = data.extract pos (pos + raw.size) → (wordAt raw 0).toInt = raw.size →
      minDocumentSize ≤ raw.size → Tiles data (pos + raw.size) rest → Tiles data pos (raw :: rest)

namespace Tiles

variable {data : ByteArray} {pos : Nat} {slices : List ByteArray}

/-- Each slice takes at least the size of an empty document. -/
theorem length_le (h : Tiles data pos slices) :
    pos + minDocumentSize * slices.length ≤ data.size := by
  induction h with
  | done => simp
  | step cut told large rest ih =>
    rw [List.length_cons, Nat.mul_succ]
    omega

/-- Together the slices are all that is left. -/
theorem joined_eq (h : Tiles data pos slices) : joined slices = data.extract pos data.size := by
  induction h with
  | done => simp
  | @step pos raw rest cut told large tiles ih =>
    have inside := tiles.length_le
    have split := ByteArray.extract_eq_extract_append_extract (a := data) (i := pos) (k := data.size)
      (pos + raw.size) (by omega) (by omega)
    rw [joined_cons, ih, split, ← cut]

theorem told (h : Tiles data pos slices) :
    ∀ raw ∈ slices, (wordAt raw 0).toInt = raw.size ∧ minDocumentSize ≤ raw.size := by
  induction h with
  | done => nofun
  | step cut told large rest ih => exact List.forall_mem_cons.mpr ⟨⟨told, large⟩, ih⟩

/-- Slices that tell their sizes tile whatever they end. -/
theorem of_joined {front : ByteArray}
    (told : ∀ raw ∈ slices, (wordAt raw 0).toInt = raw.size ∧ minDocumentSize ≤ raw.size) :
    Tiles (front ++ joined slices) front.size slices := by
  induction slices generalizing front with
  | nil =>
    rw [joined_nil, ByteArray.append_empty]
    exact .done
  | cons raw rest ih =>
    obtain ⟨⟨word, large⟩, told⟩ := List.forall_mem_cons.mp told
    rw [joined_cons, ← ByteArray.append_assoc]
    refine .step (extract_between rfl rfl).symm word large ?_
    rw [← ByteArray.size_append]
    exact ih told

end Tiles

/-- A slice that is not empty ends inside. -/
theorem size_le_of_cut {data raw : ByteArray} {pos : Nat} (cut : raw = data.extract pos (pos + raw.size))
    (nonempty : 0 < raw.size) : pos + raw.size ≤ data.size := by
  have size := congrArg ByteArray.size cut
  rw [ByteArray.size_extract] at size
  omega

/-- The next slice is cut off iff it is there as a whole and tells its size. -/
theorem rawDocument_eq_ok_iff {b b' : Body} {raw : ByteArray} :
    rawDocument b = .ok (raw, b') ↔ raw = b.data.extract b.pos (b.pos + raw.size) ∧
      (wordAt raw 0).toInt = raw.size ∧ minDocumentSize ≤ raw.size ∧
      b' = { b with pos := b.pos + raw.size } := by
  have least : minDocumentSize = 5 := rfl
  constructor
  · intro h
    unfold rawDocument at h
    obtain ⟨n, b₁, sized, h⟩ := Pieces.bind_eq_ok_iff.mp h
    obtain ⟨present, word, large, same⟩ := Pieces.documentSize_eq_ok_iff.mp sized
    subst b₁
    rw [Pieces.get_bind] at h
    split at h
    · cases h
    · next whole =>
      obtain ⟨-, cut, rfl⟩ := Pieces.take_eq_ok_iff.mp h
      have same : raw.size = n := by
        rw [cut, ByteArray.size_extract]
        omega
      refine ⟨same ▸ cut, ?_, same ▸ large, by rw [same]⟩
      rw [cut, wordAt_extract (by omega), ← cut, same]
      exact word
  · rintro ⟨cut, word, large, rfl⟩
    have inside := size_le_of_cut cut (by omega)
    have sized : Pieces.documentSize b = .ok (raw.size, b) := by
      refine Pieces.documentSize_eq_ok_iff.mpr ⟨by omega, ?_, large, rfl⟩
      rw [← word, cut, wordAt_extract (by omega), Nat.add_zero]
    have taken : Pieces.take raw.size "document" b = .ok (raw, { b with pos := b.pos + raw.size }) :=
      Pieces.take_eq_ok_iff.mpr ⟨inside, cut, rfl⟩
    unfold rawDocument
    rw [Pieces.bind_of_ok sized, Pieces.get_bind, if_neg (by omega)]
    exact taken

theorem Tiles.eq_nil {data : ByteArray} {slices : List ByteArray} (h : Tiles data data.size slices) :
    slices = [] := by
  have bound := h.length_le
  rw [minDocumentSize] at bound
  exact List.eq_nil_of_length_eq_zero (by omega)

/-- At the end nothing more is cut. -/
theorem pure_eq_ok_iff_of_atEnd {docs : Array ByteArray} {data : ByteArray} {r : List ByteArray × Body} :
    (pure docs.toList : Pieces (List ByteArray)) ⟨data, data.size⟩ = .ok r ↔
      ∃ slices, Tiles data data.size slices ∧ r = (docs.toList ++ slices, ⟨data, data.size⟩) := by
  rw [Pieces.pure_eq_ok_iff]
  constructor
  · rintro rfl
    exact ⟨[], .done, by rw [List.append_nil]⟩
  · rintro ⟨slices, tiles, rfl⟩
    rw [tiles.eq_nil, List.append_nil]

/-- Cutting ends with the slices that tile what is left. Each takes a byte at least, so the fuel lasts. -/
theorem rawDocuments_eq_ok_iff {fuel pos : Nat} {docs : Array ByteArray} {data : ByteArray}
    {r : List ByteArray × Body} (inside : pos ≤ data.size) (enough : data.size - pos ≤ fuel) :
    rawDocuments fuel docs ⟨data, pos⟩ = .ok r ↔
      ∃ slices, Tiles data pos slices ∧ r = (docs.toList ++ slices, ⟨data, data.size⟩) := by
  have least : minDocumentSize = 5 := rfl
  induction fuel generalizing docs pos with
  | zero =>
    obtain rfl : pos = data.size := by omega
    exact pure_eq_ok_iff_of_atEnd
  | succ fuel ih =>
    rw [rawDocuments, Pieces.bind_of_ok (Pieces.atEnd_apply _)]
    by_cases ended : data.size ≤ pos
    · obtain rfl : pos = data.size := by omega
      rw [if_pos (decide_eq_true ended)]
      exact pure_eq_ok_iff_of_atEnd
    · rw [if_neg (by simpa using ended), Pieces.bind_eq_ok_iff]
      constructor
      · rintro ⟨raw, m, cutOff, h⟩
        obtain ⟨cut, word, large, rfl⟩ := rawDocument_eq_ok_iff.mp cutOff
        dsimp only at cut h
        have whole := size_le_of_cut cut (by omega)
        obtain ⟨slices, tiles, rfl⟩ := (ih whole (by omega)).mp h
        exact ⟨raw :: slices, .step cut word large tiles, by simp⟩
      · rintro ⟨slices, tiles, rfl⟩
        cases tiles with
        | done => exact absurd (Nat.le_refl _) ended
        | @step _ raw rest cut word large tiles =>
          have whole := size_le_of_cut cut (by omega)
          refine ⟨raw, _, rawDocument_eq_ok_iff.mpr ⟨cut, word, large, rfl⟩, ?_⟩
          exact (ih whole (by omega)).mpr ⟨rest, tiles, by simp⟩

/-- The reply that the words of a message and the slices behind them make. -/
def assembled (header : Header) (data : ByteArray) (slices : List ByteArray) : Reply where
  header := header
  flags := ⟨wordAt data 16⟩
  cursorId := Bytes.toInt64 (data.extract 20 28)
  startingFrom := wordAt data 28
  numberReturned := wordAt data 32
  documents := slices

/-- Behind the fixed part the slices are cut off and counted. -/
theorem pieces_of_whole {header : Header} {data : ByteArray} (whole : headerSize + fixedSize ≤ data.size) :
    pieces header ⟨data, headerSize⟩ = (do
      let slices ← rawDocuments data.size #[]
      if (wordAt data 32).toInt ≠ slices.length then
        throw (.protocol (.documentCount (wordAt data 32) slices.length))
      return assembled header data slices : Pieces Reply) ⟨data, headerSize + fixedSize⟩ := by
  have taken : Pieces.take fixedSize "reply body" ⟨data, headerSize⟩ =
      .ok (data.extract 16 36, ⟨data, headerSize + fixedSize⟩) :=
    Pieces.take_eq_ok_iff.mpr ⟨whole, rfl, rfl⟩
  have word (i : Nat) (h : i + 4 ≤ 20) :
      Bytes.toInt32 ((data.extract 16 36).extract i (i + 4)) = wordAt data (16 + i) :=
    wordAt_extract (by omega)
  have flags := word 0 (by omega)
  have startingFrom := word 12 (by omega)
  have numberReturned := word 16 (by omega)
  have cursorId : (data.extract 16 36).extract 4 12 = data.extract 20 28 := by
    rw [ByteArray.extract_extract]
    rfl
  unfold pieces
  rw [Pieces.bind_of_ok taken]
  dsimp only
  rw [Pieces.get_bind]
  simp only [Nat.reduceAdd] at flags startingFrom numberReturned
  simp only [flags, startingFrom, numberReturned, cursorId]
  rfl

/-- The rest of a reply is read iff its fixed part is there and as many slices as it declares tile what
follows. -/
theorem pieces_eq_ok_iff {header : Header} {data : ByteArray} {r : Reply × Body} :
    pieces header ⟨data, headerSize⟩ = .ok r ↔ headerSize + fixedSize ≤ data.size ∧
      ∃ slices, Tiles data (headerSize + fixedSize) slices ∧
        (wordAt data 32).toInt = slices.length ∧
        r = (assembled header data slices, ⟨data, data.size⟩) := by
  by_cases whole : headerSize + fixedSize ≤ data.size
  · rw [pieces_of_whole whole, Pieces.bind_eq_ok_iff]
    constructor
    · rintro ⟨all, m, cutOff, h⟩
      obtain ⟨slices, tiles, same⟩ := (rawDocuments_eq_ok_iff whole (Nat.sub_le _ _)).mp cutOff
      cases same
      obtain ⟨counted, made⟩ := Pieces.guard_eq_ok_iff.mp h
      exact ⟨whole, slices, tiles, Decidable.not_not.mp counted, (Pieces.pure_eq_ok_iff.mp made).symm⟩
    · rintro ⟨-, slices, tiles, counted, rfl⟩
      have cutOff : rawDocuments data.size #[] ⟨data, headerSize + fixedSize⟩ =
          .ok (slices, ⟨data, data.size⟩) :=
        (rawDocuments_eq_ok_iff whole (Nat.sub_le _ _)).mpr ⟨slices, tiles, rfl⟩
      exact ⟨slices, _, cutOff, Pieces.guard_eq_ok_iff.mpr ⟨not_not_intro counted, rfl⟩⟩
  · constructor
    · intro h
      obtain ⟨fixed, m, taken, -⟩ := Pieces.bind_eq_ok_iff.mp h
      exact absurd (Pieces.take_eq_ok_iff.mp taken).1 whole
    · exact fun h => absurd h.1 whole

/-- Which bytes are which reply: the words of the message and as many slices as it declares, which tile the
rest. -/
theorem decode_eq_ok_iff {data : ByteArray} {reply : Reply} :
    decode data = .ok reply ↔ headerSize + fixedSize ≤ data.size ∧
      ∃ header slices, Header.ofBytes data = .ok header ∧ header.opcode = .reply ∧
        Tiles data (headerSize + fixedSize) slices ∧ (wordAt data 32).toInt = slices.length ∧
        reply = assembled header data slices := by
  constructor
  · intro h
    unfold decode at h
    obtain ⟨header, read, h⟩ := exceptBind_eq_ok_iff.mp h
    obtain ⟨kind, h⟩ := exceptGuard_eq_ok_iff.mp h
    obtain ⟨⟨found, b⟩, cut, h⟩ := exceptBind_eq_ok_iff.mp h
    cases h
    obtain ⟨whole, slices, tiles, counted, made⟩ := pieces_eq_ok_iff.mp cut
    exact ⟨whole, header, slices, read, Decidable.not_not.mp kind, tiles, counted, congrArg Prod.fst made⟩
  · rintro ⟨whole, header, slices, read, kind, tiles, counted, rfl⟩
    have cut : pieces header ⟨data, headerSize⟩ = .ok (assembled header data slices, ⟨data, data.size⟩) :=
      pieces_eq_ok_iff.mpr ⟨whole, slices, tiles, counted, rfl⟩
    refine exceptBind_eq_ok_iff.mpr ⟨header, read, exceptGuard_eq_ok_iff.mpr ⟨not_not_intro kind, ?_⟩⟩
    exact exceptBind_eq_ok_iff.mpr ⟨_, cut, rfl⟩

/-! ## Written replies -/

/-- The slices are the bytes of the documents, one for each. -/
def Encodes (docs : List Document) (slices : List ByteArray) : Prop :=
  List.Forall₂ (fun doc raw => doc.encode = .ok raw) docs slices

theorem Encodes.told {docs : List Document} {slices : List ByteArray} (h : Encodes docs slices) :
    ∀ raw ∈ slices, (wordAt raw 0).toInt = raw.size ∧ minDocumentSize ≤ raw.size := by
  induction h with
  | nil => nofun
  | cons encoded _ ih => exact List.forall_mem_cons.mpr ⟨Document.word_of_encode encoded, ih⟩

theorem encodes_of_foldlM {docs : List Document} {front bytes : ByteArray}
    (h : docs.foldlM (fun bytes doc => do return bytes ++ (← Pieces.ofFault doc.encode)) front =
      .ok bytes) : ∃ slices, Encodes docs slices ∧ bytes = front ++ joined slices := by
  induction docs generalizing front with
  | nil =>
    cases h
    exact ⟨[], .nil, ByteArray.append_empty.symm⟩
  | cons doc docs ih =>
    rw [List.foldlM_cons] at h
    obtain ⟨longer, added, h⟩ := exceptBind_eq_ok_iff.mp h
    obtain ⟨raw, encoded, same⟩ := exceptBind_eq_ok_iff.mp added
    cases same
    obtain ⟨slices, encodes, rfl⟩ := ih h
    refine ⟨raw :: slices, .cons (Pieces.ofFault_eq_ok_iff.mp encoded) encodes, ?_⟩
    rw [joined_cons, ByteArray.append_assoc]

/-- What is read from the fixed part of a reply is what was written. -/
theorem assembled_laid {head : ByteArray} (size : head.size = headerSize) (rest : ByteArray) (header : Header)
    (flags : Flags) (cursorId : Int64) (startingFrom numberReturned : Int32) (slices : List ByteArray) :
    assembled header (head ++ (Bytes.ofInt32 flags.bits ++ Bytes.ofInt64 cursorId ++
      Bytes.ofInt32 startingFrom ++ Bytes.ofInt32 numberReturned ++ rest)) slices =
        ⟨header, flags, cursorId, startingFrom, numberReturned, slices⟩ := by
  have start : head.size = 16 := size
  have first := @wordAt_between head
    (Bytes.ofInt64 cursorId ++ Bytes.ofInt32 startingFrom ++ Bytes.ofInt32 numberReturned ++ rest)
    flags.bits 16
  have second := @extract_between (head ++ Bytes.ofInt32 flags.bits) (Bytes.ofInt64 cursorId)
    (Bytes.ofInt32 startingFrom ++ Bytes.ofInt32 numberReturned ++ rest) 20 28
  have third := @wordAt_between (head ++ Bytes.ofInt32 flags.bits ++ Bytes.ofInt64 cursorId)
    (Bytes.ofInt32 numberReturned ++ rest) startingFrom 28
  have fourth := @wordAt_between (head ++ Bytes.ofInt32 flags.bits ++ Bytes.ofInt64 cursorId ++
    Bytes.ofInt32 startingFrom) rest numberReturned 32
  simp only [ByteArray.size_append, size_ofInt32, size_ofInt64, start, ByteArray.append_assoc,
    Nat.reduceAdd, forall_const] at first second third fourth
  simp only [assembled, ByteArray.append_assoc, first, second, third, fourth, Bytes.toInt64_ofInt64]

/-- A reply that was written is read with all that it was written from. -/
theorem decode_written {id responseTo : Int32} {flags : Flags} {cursorId : Int64} {startingFrom : Int32}
    {docs : List Document} {bytes : ByteArray}
    (h : encode id responseTo flags cursorId startingFrom docs = .ok bytes) :
    ∃ reply, decode bytes = .ok reply ∧ reply.header.id = id ∧
      reply.header.responseTo = responseTo ∧ reply.flags = flags ∧ reply.cursorId = cursorId ∧
      reply.startingFrom = startingFrom ∧ reply.numberReturned.toInt = docs.length ∧
      Encodes docs reply.documents := by
  obtain ⟨documents, written, h⟩ := exceptBind_eq_ok_iff.mp h
  obtain ⟨slices, encodes, same⟩ := encodes_of_foldlM written
  rw [ByteArray.empty_append] at same
  subst same
  obtain ⟨small, -⟩ := message_eq_ok_iff.mp h
  obtain ⟨head, size, rfl, sized, read⟩ := exists_head_of_message h
  have length : docs.length = slices.length := encodes.length_eq
  generalize words : Bytes.ofInt32 flags.bits ++ Bytes.ofInt64 cursorId ++ Bytes.ofInt32 startingFrom ++
    Bytes.ofInt32 (Int32.ofInt docs.length) = fixed at *
  have fixedSized : fixed.size = fixedSize := by
    simp [← words, size_ofInt32, size_ofInt64, fixedSize]
  have tiles : Tiles (head ++ (fixed ++ joined slices)) (headerSize + fixedSize) slices := by
    rw [← size, ← fixedSized, ← ByteArray.size_append, ← ByteArray.append_assoc]
    exact .of_joined encodes.told
  have few := tiles.length_le
  have count : (Int32.ofInt docs.length).toInt = docs.length := by
    rw [ByteArray.size_append] at few
    rw [minDocumentSize] at few
    rw [maxMessageSize] at small
    exact Int32.toInt_ofInt_of_le (by omega) (by omega)
  have made := assembled_laid size (joined slices)
    ⟨wordAt (head ++ (fixed ++ joined slices)) 0, id, responseTo, .reply⟩ flags cursorId startingFrom
    (Int32.ofInt docs.length) slices
  rw [words] at made
  have counted : (wordAt (head ++ (fixed ++ joined slices)) 32).toInt = slices.length := by
    have same := congrArg numberReturned made
    rw [assembled] at same
    dsimp only at same
    rw [same, count, length]
  have cut := decode_eq_ok_iff.mpr ⟨by omega, _, slices, read, rfl, tiles, counted, rfl⟩
  rw [made] at cut
  exact ⟨_, cut, rfl, rfl, rfl, rfl, rfl, count, encodes⟩

/-- Replies are cut exactly. The slices of an accepted reply tile what follows its fixed part, each tells
its own size, and their number, for which there is room, and the size of the message are the declared ones.
A reply that was written is read with all that it was written from, and each slice is the bytes of one
document. -/
theorem cut_exactly :
    (∀ (data : ByteArray) (reply : Reply), decode data = .ok reply →
      reply.header.length.toInt = data.size ∧
      Tiles data (headerSize + fixedSize) reply.documents ∧
      joined reply.documents = data.extract (headerSize + fixedSize) data.size ∧
      (∀ raw ∈ reply.documents, (wordAt raw 0).toInt = raw.size ∧ minDocumentSize ≤ raw.size) ∧
      reply.numberReturned.toInt = reply.documents.length ∧
      headerSize + fixedSize + minDocumentSize * reply.documents.length ≤ data.size) ∧
    ∀ (id responseTo : Int32) (flags : Flags) (cursorId : Int64) (startingFrom : Int32)
      (docs : List Document) (bytes : ByteArray),
      encode id responseTo flags cursorId startingFrom docs = .ok bytes →
        ∃ reply, decode bytes = .ok reply ∧ reply.header.id = id ∧
          reply.header.responseTo = responseTo ∧ reply.flags = flags ∧ reply.cursorId = cursorId ∧
          reply.startingFrom = startingFrom ∧ reply.numberReturned.toInt = docs.length ∧
          Encodes docs reply.documents := by
  refine ⟨fun data reply h => ?_, fun id responseTo flags cursorId startingFrom docs bytes h => ?_⟩
  · obtain ⟨-, header, slices, read, -, tiles, counted, rfl⟩ := decode_eq_ok_iff.mp h
    obtain ⟨-, sized, length, -⟩ := Header.ofBytes_eq_ok_iff.mp read
    exact ⟨length ▸ sized, tiles, tiles.joined_eq, tiles.told, counted, tiles.length_le⟩
  · exact decode_written h

/-- A reply with two documents, the first of them empty. -/
def sampleBytes : ByteArray :=
  ⟨#[49, 0, 0, 0, 3, 0, 0, 0, 7, 0, 0, 0, 1, 0, 0, 0,
    0, 0, 0, 0, 5, 0, 0, 0, 0, 0, 0, 0, 0, 0, 0, 0, 2, 0, 0, 0,
    5, 0, 0, 0, 0,
    8, 0, 0, 0, 10, 120, 0, 0]⟩

theorem cut_exactly_sample :
    encode 3 7 .none 5 0 [⟨[]⟩, ⟨[("x", .null)]⟩] = .ok sampleBytes ∧
      ∃ reply, decode sampleBytes = .ok reply ∧ reply.header.length.toInt = 49 ∧
        reply.header.id = 3 ∧ reply.cursorId = 5 ∧ reply.numberReturned.toInt = 2 ∧
        joined reply.documents = sampleBytes.extract 36 49 ∧
        Encodes [⟨[]⟩, ⟨[("x", .null)]⟩] reply.documents := by
  have written : encode 3 7 .none 5 0 [⟨[]⟩, ⟨[("x", .null)]⟩] = .ok sampleBytes := by cbv
  obtain ⟨reply, read, id, -, -, cursorId, -, count, encodes⟩ :=
    cut_exactly.2 3 7 .none 5 0 [⟨[]⟩, ⟨[("x", .null)]⟩] sampleBytes written
  obtain ⟨length, -, whole, -⟩ := cut_exactly.1 sampleBytes reply read
  exact ⟨written, reply, read, length, id, cursorId, count, whole, encodes⟩

end Reply

end DocumentClient
