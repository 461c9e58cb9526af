import DocumentClient.Proofs.Message.Failures
import DocumentClient.Proofs.Message.Pieces
import DocumentClient.Query.Namespace

/-!
# Requests as messages

A request is laid in pieces: words, the name of a collection with a zero byte behind it, documents that
tell their sizes, or numbers of cursors behind their count. Who reads the message finds the request that
was meant.

Results:
1. `Namespace.parse_full`: the full name of a collection tells its parts.
2. `collectionBytes_full`: it can be written, since no part holds a zero character.
3. `Request.queryPieces_laid`, `Request.morePieces_laid`, `Request.killPieces_laid`: the pieces of each kind
   of request come back.
4. `Request.decode_encoded`: so does every request that can be written, and a request for a collection
   that has a name fails to be written only for its documents or its size.
-/

namespace DocumentClient

open Outcome Grammar

/-! ## Names of collections -/

namespace Namespace

theorem of_fault?_eq_none {database collection : String} (h : fault? database collection = none) :
    database.contains '.' = false ∧ database.contains '\x00' = false ∧
      collection.contains '\x00' = false := by
  unfold fault? at h
  split at h
  · cases h
  · split at h
    · cases h
    · next undotted =>
      split at h
      · cases h
      · split at h
        · cases h
        · next free =>
          rw [Bool.or_eq_true, not_or] at free
          exact ⟨by simpa using undotted, by simpa using free.1, by simpa using free.2⟩

theorem ofParts_self (ns : Namespace) : ofParts ns.database ns.collection = .ok ns := by
  unfold ofParts
  split
  · next fault h =>
    rw [ns.faultless] at h
    cases h
  · rfl

/-- The full name of a collection tells its parts, since only its first dot separates. -/
theorem parse_full (ns : Namespace) : parse ns.full = .ok ns := by
  obtain ⟨undotted, -, -⟩ := of_fault?_eq_none ns.faultless
  have letters : ∀ c ∈ ns.database.toList, decide (c ≠ '.') = true := by
    intro c mem
    rw [String.contains_char_eq, decide_eq_false_iff_not] at undotted
    exact decide_eq_true fun dot => undotted (dot ▸ mem)
  have chars : ns.full.toList = ns.database.toList ++ '.' :: ns.collection.toList := by
    simp [full, String.toList_append]
  have behind : ns.full.toList.dropWhile (fun c => decide (c ≠ '.')) = '.' :: ns.collection.toList := by
    rw [chars, List.dropWhile_append_of_pos letters]
    rfl
  have before : ns.full.toList.takeWhile (fun c => decide (c ≠ '.')) = ns.database.toList := by
    rw [chars, List.takeWhile_append_of_pos letters]
    simp
  unfold parse
  dsimp only
  rw [behind]
  dsimp only
  rw [before, String.ofList_toList, String.ofList_toList]
  exact ofParts_self ns

end Namespace

theorem collectionBytes_eq_ok_iff {name : String} {bytes : ByteArray} :
    collectionBytes name = .ok bytes ↔
      0 ∉ utf8 name ∧ bytes = (utf8 name ++ [0]).toByteArray := by
  have whole : name.toUTF8.push 0 = (utf8 name ++ [0]).toByteArray := by
    rw [← Bytes.toByteArray_toList (ByteArray.push _ 0), Bytes.toList_push]
    rfl
  unfold collectionBytes
  rw [zero_mem_utf8_iff, whole]
  split
  · next zero => simp [zero]
  · next free => simp [free, eq_comm]

/-- The full name of a collection can be written. -/
theorem collectionBytes_full (ns : Namespace) :
    collectionBytes ns.full = .ok (utf8 ns.full ++ [0]).toByteArray := by
  obtain ⟨-, database, collection⟩ := Namespace.of_fault?_eq_none ns.faultless
  refine collectionBytes_eq_ok_iff.mpr ⟨?_, rfl⟩
  rw [zero_mem_utf8_iff]
  rw [String.contains_char_eq, decide_eq_false_iff_not] at database collection
  simp [Namespace.full, String.contains_char_eq, String.toList_append, database, collection]

/-! ## Documents that come back -/

/-- What a document needs so that its bytes tell it: no name twice in one document, no subtype of binary
data in a form that is never read, and no deeper nesting than is read. -/
structure Document.Restorable (doc : Document) : Prop where
  unique : doc.NamesUnique
  canonical : doc.SubtypesCanonical
  shallow : doc.nesting ≤ maxNesting

theorem Document.Restorable.decode {doc : Document} (h : doc.Restorable) {bytes : ByteArray}
    (encoded : doc.encode = .ok bytes) : Document.decode bytes = .ok doc := by
  have denotes := Write.alone_written (Write.fields_written doc.fields) encoded
  exact decode_of_isDocument (denotes h.unique h.canonical 0 (by rw [Nat.zero_add]; exact h.shallow))

theorem Document.Restorable.taken {doc : Document} (h : doc.Restorable) {bytes : ByteArray}
    (taken rest : ByteArray) (encoded : doc.encode = .ok bytes) :
    Pieces.document (.between taken (bytes ++ rest)) = .ok (doc, .between (taken ++ bytes) rest) :=
  have told := word_of_encode encoded
  Pieces.document_between _ _ told.1 told.2 (h.decode encoded)

namespace Request

/-! ## Pieces of each kind of request -/

/-- The documents of a request. -/
def documents : Request → List Document
  | query q => q.query :: q.projection.toList
  | more _ => []
  | kill _ => []

/-- The collection that a request names. -/
def collection? : Request → Option String
  | query q => some q.collection
  | more m => some m.collection
  | kill _ => none

/-- The bytes of the projection, or none if all fields are wanted. -/
def projectionBytes (q : QueryRequest) : Except Failure ByteArray :=
  match q.projection with
  | none => .ok .empty
  | some fields => Pieces.ofFault fields.encode

/-- The projection is what is left behind the query, if anything is. -/
theorem projection_laid {α : Type} {q : QueryRequest} {taken projection : ByteArray}
    (restorable : ∀ doc ∈ documents (.query q), doc.Restorable)
    (projected : projectionBytes q = .ok projection) (f : Option Document → Pieces α) :
    (do
      let b ← Pieces.atEnd
      let projection ← if b then pure none else some <$> Pieces.document
      f projection) (.between taken projection) =
        f q.projection (.between (taken ++ projection) .empty) := by
  rw [Pieces.bind_of_ok (Pieces.atEnd_between _ _)]
  unfold projectionBytes at projected
  split at projected
  · next none =>
    cases projected
    rw [none]
    simp only [ByteArray.append_empty]
    rfl
  · next fields some =>
    have encoded := Pieces.ofFault_eq_ok_iff.mp projected
    have large := (Document.word_of_encode encoded).2
    have least : minDocumentSize = 5 := rfl
    have present : ¬ decide (projection.size = 0) = true := by
      rw [decide_eq_true_iff]
      omega
    have read := (restorable fields (by simp [documents, some])).taken taken .empty encoded
    rw [ByteArray.append_empty] at read
    rw [if_neg present, some]
    refine Pieces.bind_of_ok ?_
    show (Pieces.document >>= fun doc => pure (Option.some doc)) _ = _
    rw [Pieces.bind_of_ok read]
    rfl

theorem queryPieces_laid {q : QueryRequest} {collection query projection : ByteArray} (taken : ByteArray)
    (restorable : ∀ doc ∈ documents (.query q), doc.Restorable)
    (named : collectionBytes q.collection = .ok collection) (queried : q.query.encode = .ok query)
    (projected : projectionBytes q = .ok projection) :
    ∃ b, queryPieces q.id (.between taken
      (Bytes.ofInt32 q.flags.bits ++ (collection ++ ((Bytes.ofInt32 q.skip ++
        Bytes.ofInt32 q.numberToReturn) ++ (query ++ projection))))) = .ok (.query q, b) := by
  obtain ⟨free, rfl⟩ := collectionBytes_eq_ok_iff.mp named
  have skip : wordAt (Bytes.ofInt32 q.skip ++ Bytes.ofInt32 q.numberToReturn) 0 = q.skip := by
    simpa using @wordAt_between .empty (Bytes.ofInt32 q.numberToReturn) q.skip 0 rfl
  have toReturn : wordAt (Bytes.ofInt32 q.skip ++ Bytes.ofInt32 q.numberToReturn) 4 = q.numberToReturn := by
    simpa using @wordAt_between (Bytes.ofInt32 q.skip) .empty q.numberToReturn 4 (size_ofInt32 q.skip).symm
  have rebuilt : Request.query
      { id := q.id
        flags := ⟨Bytes.toInt32 (Bytes.ofInt32 q.flags.bits)⟩
        collection := q.collection
        skip := wordAt (Bytes.ofInt32 q.skip ++ Bytes.ofInt32 q.numberToReturn) 0
        numberToReturn := wordAt (Bytes.ofInt32 q.skip ++ Bytes.ofInt32 q.numberToReturn) 4
        query := q.query
        projection := q.projection } = .query q := by
    rw [skip, toReturn, Bytes.toInt32_ofInt32]
  unfold queryPieces
  rw [Pieces.bind_of_ok (Pieces.take_between _ _ _ (size_ofInt32 _).symm),
    Pieces.bind_of_ok (Pieces.zeroEnded_between _ _ free),
    Pieces.bind_of_ok (Pieces.take_between _ _ _ (by simp [size_ofInt32])),
    Pieces.bind_of_ok ((restorable _ List.mem_cons_self).taken _ _ queried)]
  exact ⟨_, (projection_laid restorable projected _).trans
    (congrArg (fun request => Except.ok (request, _)) rebuilt)⟩

theorem size_reserved : reserved.size = 4 :=
  size_ofInt32 0

theorem morePieces_laid {m : MoreRequest} {taken collection : ByteArray}
    (named : collectionBytes m.collection = .ok collection) :
    ∃ b, morePieces m.id (.between taken
      (reserved ++ (collection ++ (Bytes.ofInt32 m.numberToReturn ++ Bytes.ofInt64 m.cursorId)))) =
        .ok (.more m, b) := by
  obtain ⟨free, rfl⟩ := collectionBytes_eq_ok_iff.mp named
  generalize laid : Bytes.ofInt32 m.numberToReturn ++ Bytes.ofInt64 m.cursorId = last
  have size : 12 = last.size := by
    rw [← laid, ByteArray.size_append, size_ofInt32, size_ofInt64]
  have toReturn : last.extract 0 4 = Bytes.ofInt32 m.numberToReturn := by
    rw [← laid, ByteArray.extract_append_eq_left (size_ofInt32 _).symm]
  have cursorId : last.extract 4 12 = Bytes.ofInt64 m.cursorId := by
    rw [size, ← laid, ByteArray.extract_append_eq_right (size_ofInt32 _).symm ByteArray.size_append]
  have ignored (b : ByteArray) : discard (Pieces.take 4 "reserved field") (.between taken (reserved ++ b)) =
      .ok (⟨⟩, .between (taken ++ reserved) b) := by
    show (Pieces.take 4 "reserved field" >>= fun _ => pure PUnit.unit) _ = _
    rw [Pieces.bind_of_ok (Pieces.take_between _ _ _ size_reserved.symm)]
    rfl
  unfold morePieces
  rw [Pieces.bind_of_ok (ignored _), Pieces.bind_of_ok (Pieces.zeroEnded_between _ _ free),
    Pieces.bind_of_ok (Pieces.take_last _ _ size), toReturn, cursorId, Bytes.toInt32_ofInt32,
    Bytes.toInt64_ofInt64]
  exact ⟨_, rfl⟩

theorem foldl_ids (ids : List Int64) (front : ByteArray) :
    ids.foldl (fun bytes id => bytes ++ Bytes.ofInt64 id) front =
      front ++ joined (ids.map Bytes.ofInt64) := by
  induction ids generalizing front with
  | nil => exact ByteArray.append_empty.symm
  | cons id ids ih => rw [List.foldl_cons, ih, ByteArray.append_assoc, List.map_cons, joined_cons]

theorem size_ids (ids : List Int64) : (joined (ids.map Bytes.ofInt64)).size = ids.length * 8 := by
  induction ids with
  | nil => rfl
  | cons id ids ih =>
    rw [List.map_cons, joined_cons, ByteArray.size_append, size_ofInt64, ih, List.length_cons]
    omega

/-- The numbers of cursors are cut from their bytes, eight at a time. -/
theorem ids_of_joined (ids : List Int64) :
    ((List.range ids.length).map fun i =>
      Bytes.toInt64 ((joined (ids.map Bytes.ofInt64)).extract (8 * i) (8 * i + 8))) = ids := by
  induction ids with
  | nil => rfl
  | cons id ids ih =>
    have first : (joined ((id :: ids).map Bytes.ofInt64)).extract 0 8 = Bytes.ofInt64 id := by
      rw [List.map_cons, joined_cons, ByteArray.extract_append_eq_left (size_ofInt64 _).symm]
    have later (i : Nat) :
        (joined ((id :: ids).map Bytes.ofInt64)).extract (8 * (i + 1)) (8 * (i + 1) + 8) =
          (joined (ids.map Bytes.ofInt64)).extract (8 * i) (8 * i + 8) := by
      have behind := ByteArray.extract_append_size_add (a := Bytes.ofInt64 id)
        (b := joined (ids.map Bytes.ofInt64)) (i := 8 * i) (j := 8 * i + 8)
      rw [size_ofInt64] at behind
      have start : 8 * (i + 1) = 8 + 8 * i := by omega
      have stop : 8 * (i + 1) + 8 = 8 + (8 * i + 8) := by omega
      rw [stop, start]
      exact behind
    rw [List.length_cons, List.range_succ_eq_map, List.map_cons, List.map_map, Function.comp_def]
    simp only [Nat.succ_eq_add_one, later, ih]
    rw [Nat.mul_zero, Nat.zero_add, first, Bytes.toInt64_ofInt64]

theorem killPieces_laid {k : KillRequest} {taken : ByteArray} (few : k.cursorIds.length < 2 ^ 31) :
    ∃ b, killPieces k.id (.between taken (k.cursorIds.foldl (fun bytes id => bytes ++ Bytes.ofInt64 id)
        (reserved ++ Bytes.ofInt32 (Int32.ofInt k.cursorIds.length)))) = .ok (.kill k, b) := by
  have count : (Int32.ofInt k.cursorIds.length).toInt = k.cursorIds.length :=
    Int32.toInt_ofInt_of_le (by omega) (by omega)
  generalize laid : reserved ++ Bytes.ofInt32 (Int32.ofInt k.cursorIds.length) = head
  have size : 8 = head.size := by
    rw [← laid, ByteArray.size_append, size_reserved, size_ofInt32]
  have word : Bytes.toInt32 (head.extract 4 8) = Int32.ofInt k.cursorIds.length := by
    rw [size, ← laid, ByteArray.extract_append_eq_right size_reserved.symm ByteArray.size_append,
      Bytes.toInt32_ofInt32]
  rw [foldl_ids]
  unfold killPieces
  rw [Pieces.bind_of_ok (Pieces.take_between _ _ _ size)]
  dsimp only
  rw [word, count, if_neg (by omega), Int.toNat_natCast,
    Pieces.bind_of_ok (Pieces.take_last _ _ (size_ids _).symm), ids_of_joined]
  exact ⟨_, rfl⟩

/-! ## Whole requests -/

/-- The number of a request. -/
def id : Request → Int32
  | query q => q.id
  | more m => m.id
  | kill k => k.id

/-- Reads a request of the same kind and with the same number. -/
def pieces : Request → Pieces Request
  | query q => queryPieces q.id
  | more m => morePieces m.id
  | kill k => killPieces k.id

theorem decode_laid (request : Request) {body m : ByteArray}
    (h : message request.opcode request.id 0 body = .ok m)
    (laid : ∀ taken, ∃ b, request.pieces (.between taken body) = .ok (request, b)) :
    decode m = .ok request ∧ (wordAt m 0).toInt = m.size := by
  obtain ⟨head, size, rfl, sized, read⟩ := exists_head_of_message h
  obtain ⟨b, taken⟩ := laid head
  have start : (⟨head ++ body, headerSize⟩ : Body) = .between head body := by
    rw [← size]
    rfl
  have chosen : decode (head ++ body) = (request.pieces (.between head body) >>= fun r => .ok r.1) := by
    unfold decode
    rw [read, ← start]
    cases request <;> rfl
  rw [chosen, taken]
  exact ⟨rfl, sized⟩

theorem encode_query (q : QueryRequest) : encode (.query q) = (do
    let collection ← collectionBytes q.collection
    let query ← Pieces.ofFault q.query.encode
    let projection ← projectionBytes q
    message .query q.id 0 <|
      Bytes.ofInt32 q.flags.bits ++ collection ++ Bytes.ofInt32 q.skip ++
        Bytes.ofInt32 q.numberToReturn ++ query ++ projection) := by
  unfold encode projectionBytes
  dsimp only
  cases q.projection <;> rfl

theorem query_laid {q : QueryRequest} {m : ByteArray}
    (restorable : ∀ doc ∈ documents (.query q), doc.Restorable) (h : encode (.query q) = .ok m) :
    decode m = .ok (.query q) ∧ (wordAt m 0).toInt = m.size := by
  rw [encode_query] at h
  obtain ⟨collection, named, h⟩ := exceptBind_eq_ok_iff.mp h
  obtain ⟨query, queried, h⟩ := exceptBind_eq_ok_iff.mp h
  obtain ⟨projection, projected, h⟩ := exceptBind_eq_ok_iff.mp h
  refine decode_laid (.query q) h fun taken => ?_
  have pieces := queryPieces_laid taken restorable named
    (Pieces.ofFault_eq_ok_iff.mp queried) projected
  simp only [ByteArray.append_assoc] at pieces ⊢
  exact pieces

theorem more_laid {r : MoreRequest} {m : ByteArray} (h : encode (.more r) = .ok m) :
    decode m = .ok (.more r) ∧ (wordAt m 0).toInt = m.size := by
  obtain ⟨collection, named, h⟩ := exceptBind_eq_ok_iff.mp h
  refine decode_laid (.more r) h fun taken => ?_
  rw [ByteArray.append_assoc, ByteArray.append_assoc]
  exact morePieces_laid named

theorem kill_laid {k : KillRequest} {m : ByteArray} (h : encode (.kill k) = .ok m) :
    decode m = .ok (.kill k) ∧ (wordAt m 0).toInt = m.size := by
  obtain ⟨small, -⟩ := message_eq_ok_iff.mp h
  rw [foldl_ids, ByteArray.size_append, size_ids] at small
  have limit : maxMessageSize = 48000000 := rfl
  exact decode_laid (.kill k) h fun taken => killPieces_laid (by omega)

/-- What keeps a request for a collection that has a name from being written: one of its documents, or
its size. -/
theorem encode_eq_error {ns : Namespace} {request : Request} {failure : Failure}
    (named : request.collection? = some ns.full) (h : request.encode = .error failure) :
    (∃ doc ∈ request.documents, ∃ fault, doc.encode = .error fault ∧ failure = .wire fault) ∨
      ∃ size, maxMessageSize < size ∧ failure = .argument (.messageSize size maxMessageSize) := by
  cases request with
  | query q =>
    have name : q.collection = ns.full := Option.some.inj named
    rw [encode_query, name, collectionBytes_full] at h
    rcases exceptBind_eq_error_iff.mp h with h | ⟨collection, -, h⟩
    · cases h
    · rcases exceptBind_eq_error_iff.mp h with h | ⟨query, -, h⟩
      · obtain ⟨fault, encoded, rfl⟩ := Pieces.ofFault_eq_error_iff.mp h
        exact .inl ⟨q.query, List.mem_cons_self, fault, encoded, rfl⟩
      · rcases exceptBind_eq_error_iff.mp h with h | ⟨projection, -, h⟩
        · unfold projectionBytes at h
          split at h
          · cases h
          · next fields some =>
            obtain ⟨fault, encoded, rfl⟩ := Pieces.ofFault_eq_error_iff.mp h
            exact .inl ⟨fields, by simp [documents, some], fault, encoded, rfl⟩
        · exact .inr (message_eq_error h)
  | more m =>
    have name : m.collection = ns.full := Option.some.inj named
    rcases exceptBind_eq_error_iff.mp h with h | ⟨collection, -, h⟩
    · rw [name, collectionBytes_full] at h
      cases h
    · exact .inr (message_eq_error h)
  | kill k => cases named

/-- A request whose documents can be read back comes back from its message, which tells its size. The full
name of a collection tells its parts, and a request for it fails to be written only because a document
cannot be written or the message would be too long. -/
theorem decode_encoded :
    (∀ (request : Request) (bytes : ByteArray), (∀ doc ∈ request.documents, doc.Restorable) →
      request.encode = .ok bytes →
        decode bytes = .ok request ∧ (wordAt bytes 0).toInt = bytes.size) ∧
    ∀ ns : Namespace, Namespace.parse ns.full = .ok ns ∧
      ∀ (request : Request) (failure : Failure), request.collection? = some ns.full →
        request.encode = .error failure →
          (∃ doc ∈ request.documents, ∃ fault, doc.encode = .error fault ∧ failure = .wire fault) ∨
          ∃ size, maxMessageSize < size ∧ failure = .argument (.messageSize size maxMessageSize) := by
  refine ⟨fun request bytes restorable h => ?_, fun ns => ⟨ns.parse_full, fun request failure named h => ?_⟩⟩
  · cases request with
    | query q => exact query_laid restorable h
    | more r => exact more_laid h
    | kill k => exact kill_laid h
  · exact encode_eq_error named h

/-- A query with a projection. -/
def sample : Request :=
  .query ⟨7, .secondaryOk, "db.a.b", 0, 2, ⟨[("x", .null)]⟩, some ⟨[("x", .int32 1)]⟩⟩

/-- The message of `sample`. -/
def sampleBytes : ByteArray :=
  ⟨#[55, 0, 0, 0, 7, 0, 0, 0, 0, 0, 0, 0, 212, 7, 0, 0,
    4, 0, 0, 0,
    100, 98, 46, 97, 46, 98, 0,
    0, 0, 0, 0, 2, 0, 0, 0,
    8, 0, 0, 0, 10, 120, 0, 0,
    12, 0, 0, 0, 16, 120, 0, 1, 0, 0, 0, 0]⟩

/-- A query for a document that cannot be written. -/
def unwritable : Request :=
  .query ⟨7, .none, "db.a.b", 0, 2, ⟨[("\x00", .null)]⟩, none⟩

theorem decode_encoded_sample :
    (∀ doc ∈ sample.documents, doc.Restorable) ∧ sample.encode = .ok sampleBytes ∧
      decode sampleBytes = .ok sample ∧ (wordAt sampleBytes 0).toInt = 55 ∧
      ∃ (ns : Namespace) (failure : Failure), unwritable.collection? = some ns.full ∧
        unwritable.encode = .error failure ∧
        ∃ doc ∈ unwritable.documents, ∃ fault, doc.encode = .error fault ∧ failure = .wire fault := by
  have restorable : ∀ doc ∈ sample.documents, doc.Restorable := by
    intro doc mem
    simp only [sample, documents, Option.toList, List.mem_cons, List.not_mem_nil, or_false] at mem
    rcases mem with rfl | rfl
    all_goals
      constructor
      · simp [Document.NamesUnique, Value.NamesUnique, Value.FieldsNamesUnique]
      · simp [Document.SubtypesCanonical, Value.SubtypesCanonical, Value.FieldsSubtypesCanonical]
      · simp [Document.nesting, Value.fieldsNesting, Value.nesting, maxNesting]
  have written : sample.encode = .ok sampleBytes := by cbv
  obtain ⟨read, sized⟩ := decode_encoded.1 sample sampleBytes restorable written
  refine ⟨restorable, written, read, sized, ?_⟩
  have named : unwritable.collection? = some (Namespace.full ⟨"db", "a.b", by cbv⟩) := by decide
  have refused : unwritable.encode = .error (.wire (.malformed (.zeroInName "\x00"))) := by cbv
  rcases (decode_encoded.2 _).2 unwritable _ named refused with cause | ⟨_, _, size⟩
  · exact ⟨_, _, named, refused, cause⟩
  · cases size

end Request

end DocumentClient
