import DocumentClient.Proofs.Message.Opcodes
import DocumentClient.Proofs.Wire.Acceptance

/-!
# Taking messages apart

A message is its header and the pieces of its body, laid one after the other. Who takes pieces from a
body gets them back in that order: the size of a piece is known before it is taken, or told by its first
bytes, or its end is marked.

Results:
1. `Header.ofBytes_eq_ok_iff`: what a header is, word by word.
2. `exists_head_of_message`: the header that a message was made with comes back, and it tells the size of
   the message.
3. `Pieces.take_eq_ok_iff`, `Pieces.documentSize_eq_ok_iff`: when a piece can be taken from any body.
4. `Pieces.take_between`, `Pieces.zeroEnded_between`, `Pieces.document_between`: pieces come back as they were
   laid.
-/

namespace DocumentClient

open Outcome Grammar

/-! ## Headers -/

/-- The word that starts at an index. -/
def wordAt (data : ByteArray) (i : Nat) : Int32 :=
  Bytes.toInt32 (data.extract i (i + 4))

theorem Opcode.ofNumber_eq_ok_iff {n : Int32} {opcode : Opcode} :
    ofNumber n = .ok opcode ↔ opcode.number = n := by
  constructor
  · intro h
    unfold ofNumber at h
    split at h
    · next found hf =>
      cases h
      simpa using List.find?_some hf
    · cases h
  · rintro rfl
    exact ofNumber_number opcode

/-- A header is read iff its words are there, its opcode is known and it tells the size of the data. -/
theorem Header.ofBytes_eq_ok_iff {data : ByteArray} {header : Header} :
    Header.ofBytes data = .ok header ↔
      headerSize ≤ data.size ∧ (wordAt data 0).toInt = data.size ∧
        header.length = wordAt data 0 ∧ header.id = wordAt data 4 ∧
        header.responseTo = wordAt data 8 ∧ header.opcode.number = wordAt data 12 := by
  unfold Header.ofBytes
  rw [exceptGuard_eq_ok_iff, exceptBind_eq_ok_iff, Nat.not_lt]
  constructor
  · rintro ⟨present, opcode, known, h⟩
    obtain ⟨sized, h⟩ := exceptGuard_eq_ok_iff.mp h
    cases h
    exact ⟨present, Decidable.not_not.mp sized, rfl, rfl, rfl, Opcode.ofNumber_eq_ok_iff.mp known⟩
  · rintro ⟨present, sized, length, id, responseTo, opcode⟩
    refine ⟨present, header.opcode, Opcode.ofNumber_eq_ok_iff.mpr opcode, ?_⟩
    refine exceptGuard_eq_ok_iff.mpr ⟨not_not_intro sized, ?_⟩
    cases header
    cases length
    cases id
    cases responseTo
    rfl

theorem message_eq_ok_iff {opcode : Opcode} {id responseTo : Int32} {body m : ByteArray} :
    message opcode id responseTo body = .ok m ↔ headerSize + body.size ≤ maxMessageSize ∧
      m = Header.toBytes ⟨Int32.ofInt (headerSize + body.size), id, responseTo, opcode⟩ ++ body := by
  unfold message
  dsimp only
  split
  · next large => simp [large]
  · next small =>
    simp [Nat.not_lt.mp small, eq_comm]

theorem message_eq_error {opcode : Opcode} {id responseTo : Int32} {body : ByteArray} {failure : Failure}
    (h : message opcode id responseTo body = .error failure) :
    ∃ size, maxMessageSize < size ∧ failure = .argument (.messageSize size maxMessageSize) := by
  unfold message at h
  dsimp only at h
  split at h
  · next large =>
    cases h
    exact ⟨_, large, rfl⟩
  · cases h

theorem Header.size_toBytes (header : Header) : header.toBytes.size = headerSize := by
  simp [Header.toBytes, size_ofInt32, headerSize]

/-- The word between two byte strings. -/
theorem wordAt_between {front rest : ByteArray} {v : Int32} {i : Nat} (hi : i = front.size) :
    wordAt (front ++ Bytes.ofInt32 v ++ rest) i = v := by
  rw [wordAt, extract_between hi (by rw [hi, size_ofInt32]), Bytes.toInt32_ofInt32]

/-- The words of a header stand at the front of a message. -/
theorem Header.words_toBytes (header : Header) (body : ByteArray) :
    wordAt (header.toBytes ++ body) 0 = header.length ∧ wordAt (header.toBytes ++ body) 4 = header.id ∧
      wordAt (header.toBytes ++ body) 8 = header.responseTo ∧
      wordAt (header.toBytes ++ body) 12 = header.opcode.number := by
  have first := @wordAt_between .empty
    (Bytes.ofInt32 header.id ++ Bytes.ofInt32 header.responseTo ++ Bytes.ofInt32 header.opcode.number ++
      body) header.length 0
  have second := @wordAt_between (Bytes.ofInt32 header.length)
    (Bytes.ofInt32 header.responseTo ++ Bytes.ofInt32 header.opcode.number ++ body) header.id 4
  have third := @wordAt_between (Bytes.ofInt32 header.length ++ Bytes.ofInt32 header.id)
    (Bytes.ofInt32 header.opcode.number ++ body) header.responseTo 8
  have fourth := @wordAt_between (Bytes.ofInt32 header.length ++ Bytes.ofInt32 header.id ++
    Bytes.ofInt32 header.responseTo) body header.opcode.number 12
  simp only [ByteArray.size_append, size_ofInt32, ByteArray.append_assoc, ByteArray.empty_append,
    ByteArray.size_empty, forall_const] at first second third fourth
  simp only [toBytes, ByteArray.append_assoc]
  exact ⟨first, second, third, fourth⟩

/-- A header that tells the size of its message comes back as it was. -/
theorem Header.ofBytes_toBytes (header : Header) {body : ByteArray}
    (sized : header.length.toInt = headerSize + body.size) :
    Header.ofBytes (header.toBytes ++ body) = .ok header := by
  obtain ⟨first, second, third, fourth⟩ := header.words_toBytes body
  have size : (header.toBytes ++ body).size = headerSize + body.size := by
    rw [ByteArray.size_append, header.size_toBytes]
  refine Header.ofBytes_eq_ok_iff.mpr ⟨by omega, ?_, first.symm, second.symm, third.symm, fourth.symm⟩
  rw [first, sized, size]
  exact_mod_cast rfl

/-- A message is a header, which comes back as it was and tells the size of the message, and the
body. -/
theorem exists_head_of_message {opcode : Opcode} {id responseTo : Int32} {body m : ByteArray}
    (h : message opcode id responseTo body = .ok m) :
    ∃ head : ByteArray, head.size = headerSize ∧ m = head ++ body ∧ (wordAt m 0).toInt = m.size ∧
      Header.ofBytes m = .ok ⟨wordAt m 0, id, responseTo, opcode⟩ := by
  obtain ⟨small, rfl⟩ := message_eq_ok_iff.mp h
  have limit : maxMessageSize = 48000000 := rfl
  have word : (Int32.ofInt (headerSize + body.size)).toInt = headerSize + body.size := by
    rw [Int32.toInt_ofInt_of_le (by omega) (by omega)]
  have read := Header.ofBytes_toBytes
    ⟨Int32.ofInt (headerSize + body.size), id, responseTo, opcode⟩ word
  obtain ⟨-, sized, length, -⟩ := Header.ofBytes_eq_ok_iff.mp read
  refine ⟨_, Header.size_toBytes _, rfl, sized, ?_⟩
  rw [← length]
  exact read

/-! ## Sizes that documents tell -/

/-- A document tells its size iff it starts with a word that is no less than the size of an empty
document. -/
theorem Document.declaredSize_eq_ok_iff {data : ByteArray} {n : Nat} :
    Document.declaredSize data = .ok n ↔
      4 ≤ data.size ∧ (wordAt data 0).toInt = n ∧ minDocumentSize ≤ n := by
  unfold declaredSize
  split
  · next short =>
    simp
    omega
  · next present =>
    show (if (wordAt data 0).toInt < minDocumentSize then _ else .ok (wordAt data 0).toInt.toNat) =
      Except.ok n ↔ _
    split
    · next small =>
      simp
      omega
    · next large =>
      simp only [Except.ok.injEq]
      omega

/-- A document that has been encoded tells its own size. -/
theorem Document.word_of_encode {doc : Document} {bytes : ByteArray} (h : doc.encode = .ok bytes) :
    (wordAt bytes 0).toInt = bytes.size ∧ minDocumentSize ≤ bytes.size := by
  obtain ⟨writable, rfl⟩ := encode_eq_ok_iff.mp h
  obtain ⟨-, -, small⟩ := writable_iff.mp writable
  have told := declaredSize_layout small
  rw [← List.size_toByteArray] at told
  exact (declaredSize_eq_ok_iff.mp told).2

/-- A word of a slice is a word of the whole. -/
theorem wordAt_extract {data : ByteArray} {i j k : Nat} (h : i + k + 4 ≤ j) :
    wordAt (data.extract i j) k = wordAt data (i + k) := by
  rw [wordAt, wordAt, ByteArray.extract_extract, ← Nat.add_assoc, Nat.min_eq_left h]

/-! ## Pieces of any body -/

namespace Pieces

variable {α β : Type}

theorem bind_eq_ok_iff {p : Pieces α} {f : α → Pieces β} {b : Body} {r : β × Body} :
    (p >>= f) b = .ok r ↔ ∃ a m, p b = .ok (a, m) ∧ f a m = .ok r := by
  constructor
  · intro h
    obtain ⟨⟨a, m⟩, first, rest⟩ := exceptBind_eq_ok_iff.mp h
    exact ⟨a, m, first, rest⟩
  · rintro ⟨a, m, first, rest⟩
    exact exceptBind_eq_ok_iff.mpr ⟨(a, m), first, rest⟩

theorem bind_of_ok {p : Pieces α} {f : α → Pieces β} {b m : Body} {a : α} (h : p b = .ok (a, m)) :
    (p >>= f) b = f a m := by
  show (p b >>= fun r => f r.1 r.2) = _
  rw [h]
  rfl

theorem get_bind {f : Body → Pieces α} {b : Body} : (get >>= f) b = f b b := rfl

theorem pure_eq_ok_iff {a : α} {b : Body} {r : α × Body} :
    (pure a : Pieces α) b = .ok r ↔ (a, b) = r := by
  show Except.ok (a, b) = .ok r ↔ _
  simp

/-- A step behind a check succeeds iff the check lets it through. -/
theorem guard_eq_ok_iff {c : Prop} [Decidable c] {failure : Failure} {f : PUnit → Pieces α}
    {p : Pieces α} {b : Body} {r : α × Body} :
    (if c then throw failure >>= f else p) b = .ok r ↔ ¬ c ∧ p b = .ok r := by
  by_cases h : c
  · have thrown : (throw failure >>= f : Pieces α) b = .error failure := rfl
    simp [h, thrown]
  · simp [h]

theorem ofFault_eq_ok_iff {result : Except Fault α} {a : α} :
    ofFault result = .ok a ↔ result = .ok a := by
  cases result with
  | ok found =>
    show Except.ok found = .ok a ↔ _
    simp
  | error fault =>
    show Except.error _ = .ok a ↔ _
    simp

theorem ofFault_eq_error_iff {result : Except Fault α} {failure : Failure} :
    ofFault result = .error failure ↔ ∃ fault, result = .error fault ∧ failure = .wire fault := by
  cases result with
  | ok found =>
    show Except.ok found = .error failure ↔ _
    simp
  | error fault =>
    show Except.error (.wire fault) = .error failure ↔ _
    simp [eq_comm]

/-- A piece is taken iff it is there as a whole. -/
theorem take_eq_ok_iff {n : Nat} {what : String} {b b' : Body} {bytes : ByteArray} :
    take n what b = .ok (bytes, b') ↔ b.pos + n ≤ b.data.size ∧
      bytes = b.data.extract b.pos (b.pos + n) ∧ b' = { b with pos := b.pos + n } := by
  unfold take
  split
  · next short =>
    simp
    omega
  · next whole =>
    simp [Nat.not_lt.mp whole, eq_comm]

theorem atEnd_apply (b : Body) : atEnd b = .ok (decide (b.data.size ≤ b.pos), b) := rfl

/-- The next document tells its size iff the word at its front is there and no less than the size of an
empty document. -/
theorem documentSize_eq_ok_iff {b b' : Body} {n : Nat} :
    documentSize b = .ok (n, b') ↔ b.pos + 4 ≤ b.data.size ∧
      (wordAt b.data b.pos).toInt = n ∧ minDocumentSize ≤ n ∧ b' = b := by
  have told : documentSize b = (ofFault (Document.declaredSize
      (b.data.extract b.pos (min b.data.size (b.pos + 4)))) >>= fun n => .ok (n, b)) := rfl
  have size : (b.data.extract b.pos (min b.data.size (b.pos + 4))).size =
      min b.data.size (b.pos + 4) - b.pos := by
    rw [ByteArray.size_extract]
    omega
  rw [told, exceptBind_eq_ok_iff]
  simp only [ofFault_eq_ok_iff, Document.declaredSize_eq_ok_iff, size, Except.ok.injEq, Prod.mk.injEq]
  constructor
  · rintro ⟨m, ⟨present, word, large⟩, rfl, rfl⟩
    rw [wordAt_extract (by omega), Nat.add_zero] at word
    exact ⟨by omega, word, large, rfl⟩
  · rintro ⟨present, word, large, rfl⟩
    rw [wordAt_extract (by omega), Nat.add_zero]
    exact ⟨n, ⟨by omega, word, large⟩, rfl, rfl⟩

end Pieces

/-! ## Pieces that were laid one after another -/

/-- Byte strings one after another. -/
def joined (slices : List ByteArray) : ByteArray :=
  slices.foldr (· ++ ·) .empty

@[simp] theorem joined_nil : joined [] = .empty := rfl

@[simp] theorem joined_cons (slice : ByteArray) (rest : List ByteArray) :
    joined (slice :: rest) = slice ++ joined rest := rfl

/-- The body from which `taken` has been taken and `rest` is left. -/
def Body.between (taken rest : ByteArray) : Body :=
  ⟨taken ++ rest, taken.size⟩

namespace Pieces

variable (taken rest : ByteArray) {piece : ByteArray}

/-- Taking the bytes of a piece gives the piece. -/
theorem take_between {n : Nat} (what : String) (h : n = piece.size) :
    take n what (.between taken (piece ++ rest)) = .ok (piece, .between (taken ++ piece) rest) := by
  subst h
  refine take_eq_ok_iff.mpr ⟨?_, ?_, ?_⟩
  · simp only [Body.between, ByteArray.size_append]
    omega
  · rw [Body.between, ← ByteArray.append_assoc, extract_between rfl rfl]
  · simp only [Body.between, ByteArray.append_assoc, ByteArray.size_append]

/-- The same of the last piece. -/
theorem take_last {n : Nat} (what : String) (h : n = piece.size) :
    take n what (.between taken piece) = .ok (piece, .between (taken ++ piece) .empty) := by
  have last := take_between taken .empty what h
  rw [ByteArray.append_empty] at last
  exact last

/-- A body whose last piece has been taken is at its end. -/
theorem atEnd_between : atEnd (.between taken rest) = .ok (decide (rest.size = 0), .between taken rest) := by
  rw [atEnd_apply]
  simp only [Body.between, ByteArray.size_append]
  congr 3
  simp

/-- A text that a zero byte ends is found in a body as it is in a document. -/
theorem zeroEnded_of_reader {b : Body} {r r' : Reader} {text : String} (data : r.data = b.data)
    (pos : r.pos = b.pos) (h : Read.zeroEnded r = .ok text r') :
    zeroEnded b = .ok (text, { b with pos := r'.pos }) := by
  obtain ⟨found, le, -, present, zero, before, bytes, rfl⟩ := Read.zeroEnded_eq_ok_iff.mp h
  rw [data] at present zero before bytes
  rw [pos] at le before bytes
  have search : Read.zeroFrom? b.data (b.data.size - b.pos) b.pos = some found :=
    Read.zeroFrom?_eq_some_iff.mpr ⟨le, by omega, zero, before⟩
  have behind : r.pos + (found + 1 - r.pos) = found + 1 := by omega
  unfold zeroEnded
  rw [search]
  dsimp only
  rw [decodeUtf8_eq_ok_iff.mpr bytes, Reader.advance_pos, behind]

/-- A text that a zero byte ends comes back. -/
theorem zeroEnded_between {text : String} (free : 0 ∉ utf8 text) :
    zeroEnded (.between taken ((utf8 text ++ [0]).toByteArray ++ rest)) =
      .ok (text, .between (taken ++ (utf8 text ++ [0]).toByteArray) rest) := by
  generalize laid : utf8 text ++ [0] = bs
  have size : (taken ++ (bs.toByteArray ++ rest)).size = taken.size + (bs.length + rest.size) := by
    simp only [ByteArray.size_append, List.size_toByteArray]
  let r : Reader := { data := taken ++ (bs.toByteArray ++ rest), pos := taken.size }
  have ahead : r.Ahead bs := by
    have room : taken.size + bs.length ≤ (taken ++ (bs.toByteArray ++ rest)).size := by omega
    refine ⟨room, room, ?_⟩
    show (taken ++ (bs.toByteArray ++ rest)).extract taken.size (taken.size + bs.length) = _
    rw [← ByteArray.append_assoc, extract_between rfl (by rw [List.size_toByteArray])]
  have read := (Read.accepts_zeroEnded r _ text).mpr ⟨bs, laid ▸ .mk free, ahead, rfl⟩
  rw [zeroEnded_of_reader (b := .between taken (bs.toByteArray ++ rest)) rfl rfl read]
  simp only [Body.between, Reader.advance_pos, ByteArray.append_assoc, ByteArray.size_append,
    List.size_toByteArray]
  rfl

/-- A document that can be read from its bytes comes back. -/
theorem document_between {doc : Document} (told : (wordAt piece 0).toInt = piece.size)
    (large : minDocumentSize ≤ piece.size) (read : Document.decode piece = .ok doc) :
    document (.between taken (piece ++ rest)) = .ok (doc, .between (taken ++ piece) rest) := by
  have least : minDocumentSize = 5 := rfl
  have room : taken.size + piece.size ≤ (taken ++ (piece ++ rest)).size := by
    simp only [ByteArray.size_append]
    omega
  have here : wordAt (taken ++ (piece ++ rest)) taken.size = wordAt piece 0 := by
    rw [← Nat.add_zero taken.size, ← wordAt_extract (j := taken.size + piece.size) (by omega),
      ← ByteArray.append_assoc, extract_between rfl rfl]
  have size : documentSize (.between taken (piece ++ rest)) =
      .ok (piece.size, .between taken (piece ++ rest)) := by
    refine documentSize_eq_ok_iff.mpr ⟨?_, ?_, large, rfl⟩
    · simp only [Body.between]
      omega
    · rw [← told, ← here]
      rfl
  unfold document
  rw [bind_of_ok size, bind_of_ok (take_between _ _ _ rfl), read]
  rfl

end Pieces

end DocumentClient
