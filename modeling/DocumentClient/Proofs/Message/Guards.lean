import DocumentClient.Message.Reply
import DocumentClient.Proofs.Message.Replies
import DocumentClient.Proofs.Wire.Access

/-!
# Reading messages within their bounds

A decoder of messages asks whether bytes are there and reads them afterwards, often some at a time and in
another place. A read that no question covers would go beyond the message, and a loop whose number of steps
the message tells could go on for longer than the message lasts.

Here the decoders are stated once more with every question, every single read and every step of a loop. A
read for which too few bytes are left stops the decoder, and so does a step for which a loop has no allowance
left. None of this ever happens: the decoders end as those of `Header`, `Request` and `Reply` do, which take
whole pieces.

* `Stop`: the message is refused, or a read goes too far, or a loop takes too many steps.
* `Stepwise`: decoders that stop in these ways.
* `Stepwise.cursorIds`, `Stepwise.slices`: the loops, with the steps that they are allowed.

Results:
1. `Stepwise.need_bind`: behind a question for `n` bytes, what reads them one by one may be compared with
   what takes them as a piece.
2. `Stepwise.cursorIds_eq`, `Stepwise.slices_eq`: the loops get by with one step for every eight and every
   five bytes; induction on the steps.
3. `Stepwise.decoders_within_bounds`: no decoder ever reads beyond a message or steps on for too long.
-/

namespace DocumentClient

/-- Why a decoder stops without a result. -/
inductive Stop where
  | refused (failure : Failure)
  /-- A read for which too few bytes are left. -/
  | overread
  /-- One step more than a loop may take. -/
  | exhausted

/-- Decodes a message read by read. -/
abbrev Stepwise := StateT Body (Except Stop)

namespace Stepwise

/-! ## Reads and questions -/

/-- The next `n` bytes, which stay where they are. -/
def slice (n : Nat) : Stepwise ByteArray := fun b =>
  if b.data.size < b.pos + n then .error .overread else .ok (b.data.extract b.pos (b.pos + n), b)

/-- Passes over `n` bytes. -/
def advance (n : Nat) : Stepwise Unit := fun b =>
  if b.data.size < b.pos + n then .error .overread else .ok ((), { b with pos := b.pos + n })

/-- All bytes that are left. -/
def remaining : Stepwise ByteArray := fun b =>
  if b.data.size < b.pos then .error .overread else .ok (b.data.extract b.pos b.data.size, b)

/-- The next word. -/
def int32 : Stepwise Int32 := do
  let bytes ← slice 4
  advance 4
  return Bytes.toInt32 bytes

/-- The next long word. -/
def int64 : Stepwise Int64 := do
  let bytes ← slice 8
  advance 8
  return Bytes.toInt64 bytes

/-- Refuses the message. -/
def refuse {α : Type} (failure : Failure) : Stepwise α :=
  throw (.refused failure)

/-- Passes a refusal on. -/
def ofResult {α : Type} (result : Except Failure α) : Stepwise α :=
  match result with
  | .ok a => pure a
  | .error failure => refuse failure

/-- Asks for `n` bytes, which are called `what`. -/
def need (n : Nat) (what : String) : Stepwise Unit := do
  if (← remaining).size < n then refuse (.protocol (.truncated what))

/-- The offset of the first zero byte among the `count` bytes from `start` on, each of which must be there. -/
def zeroFrom (data : ByteArray) : Nat → Nat → Except Stop (Option Nat)
  | 0, _ => .ok none
  | count + 1, start =>
    if data.size ≤ start then .error .overread
    else if data.get! start = 0 then .ok (some start)
    else zeroFrom data count (start + 1)

/-- How many bytes are left before the first zero byte. -/
def firstZero : Stepwise (Option Nat) := do
  let rest ← remaining
  zeroFrom rest rest.size 0

/-- A text that ends at the first zero byte. -/
def zeroEnded : Stepwise String := do
  match ← firstZero with
  | none => refuse (.protocol .openText)
  | some found =>
    match Text.decodeUtf8 (← slice found) with
    | .error fault => refuse (.protocol (.badText fault))
    | .ok text =>
      advance (found + 1)
      return text

/-- The size that the next document declares. -/
def documentSize : Stepwise Nat := do
  ofResult (Pieces.ofFault (Document.declaredSize (← remaining)))

/-- The next document. -/
def document : Stepwise Document := do
  let size ← documentSize
  need size "document"
  let doc ← ofResult (Pieces.ofFault (Document.decode (← slice size)))
  advance size
  return doc

/-! ## Decoders -/

/-- The header of a message. -/
def header : Stepwise Header := do
  let data ← remaining
  if data.size < headerSize then refuse (.protocol (.shortHeader data.size))
  let length ← int32
  let id ← int32
  let responseTo ← int32
  let opcode ← ofResult (Opcode.ofNumber (← int32))
  if length.toInt < 0 ∨ length.toInt.toNat ≠ data.size then
    refuse (.protocol (.lengthMismatch length data.size))
  return { length := length, id := id, responseTo := responseTo, opcode := opcode }

/-- The rest of a query. -/
def queryRest (id : Int32) : Stepwise Request := do
  need 4 "query flags"
  let flags ← int32
  let collection ← zeroEnded
  need 8 "skip/return counts"
  let skip ← int32
  let numberToReturn ← int32
  let query ← document
  let projection ← if (← remaining).size = 0 then pure none else some <$> document
  return .query
    { id := id
      flags := ⟨flags⟩
      collection := collection
      skip := skip
      numberToReturn := numberToReturn
      query := query
      projection := projection }

/-- The rest of a request for more. -/
def moreRest (id : Int32) : Stepwise Request := do
  need 4 "reserved field"
  advance 4
  let collection ← zeroEnded
  need 12 "get more body"
  let numberToReturn ← int32
  let cursorId ← int64
  return .more
    { id := id
      collection := collection
      numberToReturn := numberToReturn
      cursorId := cursorId }

/-- As many cursors as are declared, one for each step. -/
def cursorIds : (allowance declared : Nat) → Stepwise (List Int64)
  | _, 0 => return []
  | 0, _ + 1 => throw .exhausted
  | allowance + 1, declared + 1 => do
    let id ← int64
    let rest ← cursorIds allowance declared
    return id :: rest

/-- The rest of a request that gives cursors up. -/
def killRest (id : Int32) : Stepwise Request := do
  need 8 "kill cursors body"
  advance 4
  let count ← int32
  if count.toInt < 0 then refuse (.protocol (.negativeCount count))
  need (count.toInt.toNat * 8) "cursor ids"
  let ids ← cursorIds ((← remaining).size / 8) count.toInt.toNat
  return .kill { id := id, cursorIds := ids }

/-- The request that a message is. -/
def request (data : ByteArray) : Except Stop Request := do
  let head ← header.run' ⟨data, 0⟩
  let rest : Stepwise Request := do
    advance headerSize
    match head.opcode with
    | .query => queryRest head.id
    | .getMore => moreRest head.id
    | .killCursors => killRest head.id
    | .reply => refuse (.protocol .replyNotRequest)
  rest.run' ⟨data, 0⟩

/-- The next document as bytes. -/
def rawDocument : Stepwise ByteArray := do
  let size ← documentSize
  let b ← get
  if b.data.size < b.pos + size then refuse (.protocol (.documentOverrun b.pos))
  let raw ← slice size
  advance size
  return raw

/-- Cuts the rest into documents, one in each step. -/
def slices (allowance : Nat) (docs : Array ByteArray) : Stepwise (List ByteArray) := do
  let b ← get
  if b.data.size ≤ b.pos then return docs.toList
  match allowance with
  | 0 => throw .exhausted
  | allowance + 1 => slices allowance (docs.push (← rawDocument))

/-- The rest of a reply. -/
def replyRest (head : Header) : Stepwise Reply := do
  need Reply.fixedSize "reply body"
  let flags ← int32
  let cursorId ← int64
  let startingFrom ← int32
  let declared ← int32
  -- The last step may find less than five bytes, and then it refuses the message.
  let documents ← slices (((← remaining).size + 4) / 5) #[]
  if declared.toInt ≠ documents.length then
    refuse (.protocol (.documentCount declared documents.length))
  return {
    header := head
    flags := ⟨flags⟩
    cursorId := cursorId
    startingFrom := startingFrom
    numberReturned := declared
    documents := documents }

/-- The reply that a message is. -/
def reply (data : ByteArray) : Except Stop Reply := do
  let head ← header.run' ⟨data, 0⟩
  if head.opcode ≠ .reply then throw (.refused (.protocol (.notReply head.opcode.label)))
  let rest : Stepwise Reply := do
    advance headerSize
    replyRest head
  rest.run' ⟨data, 0⟩

/-! ## Comparing -/

section

variable {α β : Type} {s : Stepwise α} {f : α → Stepwise β} {p : Pieces α} {g : α → Pieces β}
  {b m : Body}

theorem bind_of_ok {ε : Type} {s : StateT Body (Except ε) α} {f : α → StateT Body (Except ε) β} {a : α}
    (h : s b = .ok (a, m)) : (s >>= f) b = f a m := by
  show (s b >>= fun r => f r.1 r.2) = _
  rw [h]
  rfl

theorem bind_of_error {ε : Type} {s : StateT Body (Except ε) α} {f : α → StateT Body (Except ε) β}
    {e : ε} (h : s b = .error e) : (s >>= f) b = .error e := by
  show (s b >>= fun r => f r.1 r.2) = _
  rw [h]
  rfl

/-- Steps that end alike go on alike. -/
theorem bind_alike (first : s b = (p b).mapError .refused)
    (next : ∀ a m, p b = .ok (a, m) → f a m = (g a m).mapError .refused) :
    (s >>= f) b = ((p >>= g) b).mapError .refused := by
  cases read : p b with
  | ok r =>
    rw [read] at first
    rw [bind_of_ok first, bind_of_ok read, next r.1 r.2 read]
  | error failure =>
    rw [read] at first
    rw [bind_of_error first, bind_of_error read]
    rfl

/-- Checks that refuse alike go on alike. -/
theorem guard_alike {c : Prop} [Decidable c] {failure : Failure} {t : PUnit → Stepwise α}
    {q : PUnit → Pieces α} {s : Stepwise α} {p : Pieces α}
    (pass : ¬ c → s b = (p b).mapError .refused) :
    (if c then refuse failure >>= t else s) b =
      ((if c then throw failure >>= q else p) b).mapError .refused := by
  by_cases stop : c
  · rw [if_pos stop, if_pos stop]
    rfl
  · rw [if_neg stop, if_neg stop]
    exact pass stop

theorem map_alike {h : α → β} (first : s b = (p b).mapError .refused) :
    (h <$> s) b = ((h <$> p) b).mapError .refused := by
  rw [← bind_pure_comp, ← bind_pure_comp]
  exact bind_alike first fun _ _ _ => rfl

theorem ofResult_alike (result : Except Failure α) :
    ofResult result b = (((result : Pieces α) b)).mapError .refused := by
  cases result <;> rfl

end

/-! ## Reads that a question covers -/

section

variable {b m : Body} {n : Nat} {what : String}

theorem slice_of_fits (fits : b.pos + n ≤ b.data.size) :
    slice n b = .ok (b.data.extract b.pos (b.pos + n), b) :=
  if_neg (Nat.not_lt.mpr fits)

theorem advance_of_fits (fits : b.pos + n ≤ b.data.size) :
    advance n b = .ok ((), { b with pos := b.pos + n }) :=
  if_neg (Nat.not_lt.mpr fits)

theorem remaining_of_inside (inside : b.pos ≤ b.data.size) :
    remaining b = .ok (b.data.extract b.pos b.data.size, b) :=
  if_neg (Nat.not_lt.mpr inside)

theorem size_rest (b : Body) : (b.data.extract b.pos b.data.size).size = b.data.size - b.pos := by
  rw [ByteArray.size_extract, Nat.min_self]

theorem int32_of_fits (fits : b.pos + 4 ≤ b.data.size) :
    int32 b = .ok (wordAt b.data b.pos, { b with pos := b.pos + 4 }) := by
  unfold int32
  rw [bind_of_ok (slice_of_fits fits), bind_of_ok (advance_of_fits fits)]
  rfl

theorem int64_of_fits (fits : b.pos + 8 ≤ b.data.size) :
    int64 b = .ok (Bytes.toInt64 (b.data.extract b.pos (b.pos + 8)), { b with pos := b.pos + 8 }) := by
  unfold int64
  rw [bind_of_ok (slice_of_fits fits), bind_of_ok (advance_of_fits fits)]
  rfl

theorem need_of_fits (fits : b.pos + n ≤ b.data.size) : need n what b = .ok ((), b) := by
  unfold need
  rw [bind_of_ok (remaining_of_inside (by omega)), size_rest, if_neg (by omega)]
  rfl

theorem need_of_short (inside : b.pos ≤ b.data.size) (short : ¬ b.pos + n ≤ b.data.size) :
    need n what b = .error (.refused (.protocol (.truncated what))) := by
  unfold need
  rw [bind_of_ok (remaining_of_inside inside), size_rest, if_pos (by omega)]
  rfl

/-- Behind a question for `n` bytes, what reads them one by one may be compared with what takes them as a
piece. -/
theorem need_bind {α : Type} {s : Stepwise α} {g : ByteArray → Pieces α} (inside : b.pos ≤ b.data.size)
    (next : b.pos + n ≤ b.data.size →
      s b = (g (b.data.extract b.pos (b.pos + n)) { b with pos := b.pos + n }).mapError .refused) :
    (need n what >>= fun _ => s) b = ((Pieces.take n what >>= g) b).mapError .refused := by
  by_cases fits : b.pos + n ≤ b.data.size
  · rw [bind_of_ok (need_of_fits fits), next fits,
      Pieces.bind_of_ok (Pieces.take_eq_ok_iff.mpr ⟨fits, rfl, rfl⟩)]
  · have short : Pieces.take n what b = .error (.protocol (.truncated what)) :=
      if_pos (Nat.not_le.mp fits)
    rw [bind_of_error (need_of_short inside fits), bind_of_error short]
    rfl

/-! ## Texts and documents -/

/-- Only the first four bytes tell the size of a document. -/
theorem declaredSize_front (data : ByteArray) :
    Document.declaredSize (data.extract 0 4) = Document.declaredSize data := by
  have size : (data.extract 0 4).size = min 4 data.size := by
    rw [ByteArray.size_extract, Nat.sub_zero]
  have front : (data.extract 0 4).extract 0 4 = data.extract 0 4 := by
    rw [ByteArray.extract_extract]
    rfl
  unfold Document.declaredSize
  rw [front]
  by_cases short : data.size < 4
  · rw [if_pos short, if_pos (by omega)]
  · rw [if_neg short, if_neg (by omega)]

theorem documentSize_alike (inside : b.pos ≤ b.data.size) :
    documentSize b = (Pieces.documentSize b).mapError .refused := by
  have front : (b.data.extract b.pos b.data.size).extract 0 4 =
      b.data.extract b.pos (min b.data.size (b.pos + 4)) := by
    rw [ByteArray.extract_extract, Nat.add_zero, Nat.min_comm]
  unfold documentSize Pieces.documentSize
  rw [bind_of_ok (remaining_of_inside inside), Pieces.get_bind, ← declaredSize_front, front]
  exact ofResult_alike _

theorem document_alike (inside : b.pos ≤ b.data.size) :
    document b = (Pieces.document b).mapError .refused := by
  refine bind_alike (documentSize_alike inside) fun size m told => ?_
  obtain ⟨-, -, -, rfl⟩ := Pieces.documentSize_eq_ok_iff.mp told
  refine need_bind inside fun fits => ?_
  rw [bind_of_ok (slice_of_fits fits)]
  cases Pieces.ofFault (Document.decode (m.data.extract m.pos (m.pos + size))) with
  | ok doc =>
    rw [bind_of_ok (a := doc) (m := m) rfl, bind_of_ok (advance_of_fits fits)]
    rfl
  | error failure => rfl

theorem inside_document {doc : Document} (h : Pieces.document b = .ok (doc, m)) : m.pos ≤ m.data.size := by
  obtain ⟨size, m₁, told, h⟩ := Pieces.bind_eq_ok_iff.mp h
  obtain ⟨bytes, m₂, taken, h⟩ := Pieces.bind_eq_ok_iff.mp h
  obtain ⟨fits, -, rfl⟩ := Pieces.take_eq_ok_iff.mp taken
  cases read : Document.decode bytes with
  | ok found =>
    rw [read] at h
    cases h
    exact fits
  | error fault =>
    rw [read] at h
    cases h

/-- Looking for a zero byte among bytes that are there never goes too far. -/
theorem zeroFrom_eq {data : ByteArray} {pos count start : Nat} (present : pos + start + count ≤ data.size) :
    zeroFrom (data.extract pos data.size) count start =
      .ok ((Read.zeroFrom? data count (pos + start)).map (· - pos)) := by
  have size : (data.extract pos data.size).size = data.size - pos := size_rest ⟨data, pos⟩
  induction count generalizing start with
  | zero => rfl
  | succ count ih =>
    rw [zeroFrom, Read.zeroFrom?, if_neg (by omega), Bytes.get!_extract (by omega) (by omega)]
    by_cases zero : data.get! (pos + start) = 0
    · rw [if_pos zero, if_pos zero]
      simp
    · rw [if_neg zero, if_neg zero, ih (by omega), Nat.add_assoc]

theorem firstZero_of_inside (inside : b.pos ≤ b.data.size) :
    firstZero b = .ok ((Read.zeroFrom? b.data (b.data.size - b.pos) b.pos).map (· - b.pos), b) := by
  have search := @zeroFrom_eq b.data b.pos (b.data.size - b.pos) 0 (by omega)
  rw [Nat.add_zero] at search
  unfold firstZero
  rw [bind_of_ok (remaining_of_inside inside), size_rest, search]
  rfl

theorem zeroEnded_alike (inside : b.pos ≤ b.data.size) :
    zeroEnded b = (Pieces.zeroEnded b).mapError .refused := by
  unfold zeroEnded Pieces.zeroEnded
  rw [bind_of_ok (firstZero_of_inside inside)]
  cases search : Read.zeroFrom? b.data (b.data.size - b.pos) b.pos with
  | none => rfl
  | some found =>
    obtain ⟨le, lt, -, -⟩ := Read.zeroFrom?_eq_some_iff.mp search
    have text : b.pos + (found - b.pos) = found := by omega
    have behind : b.pos + (found - b.pos + 1) = found + 1 := by omega
    dsimp only [Option.map]
    rw [bind_of_ok (slice_of_fits (by omega)), text]
    cases Text.decodeUtf8 (b.data.extract b.pos found) with
    | error fault => rfl
    | ok name =>
      dsimp only
      rw [bind_of_ok (advance_of_fits (by omega)), behind]
      rfl

theorem inside_zeroEnded {text : String} (h : Pieces.zeroEnded b = .ok (text, m)) : m.pos ≤ m.data.size := by
  unfold Pieces.zeroEnded at h
  cases search : Read.zeroFrom? b.data (b.data.size - b.pos) b.pos with
  | none =>
    rw [search] at h
    cases h
  | some found =>
    obtain ⟨le, lt, -, -⟩ := Read.zeroFrom?_eq_some_iff.mp search
    rw [search] at h
    dsimp only at h
    split at h
    · cases h
      show found + 1 ≤ b.data.size
      omega
    · cases h

end

/-! ## Decoders -/

/-- A length is that of the data iff it is not negative and no other one. -/
theorem length_ne_iff {length : Int32} {n : Nat} :
    (length.toInt < 0 ∨ length.toInt.toNat ≠ n) ↔ length.toInt ≠ n := by
  omega

/-- The four words of a header are there if its bytes are. -/
theorem header_eq (data : ByteArray) :
    header.run' ⟨data, 0⟩ = (Header.ofBytes data).mapError .refused := by
  have looked : remaining ⟨data, 0⟩ = .ok (data, ⟨data, 0⟩) := by
    rw [remaining_of_inside (Nat.zero_le _), ByteArray.extract_zero_size]
  unfold header Header.ofBytes
  by_cases short : data.size < headerSize
  · show Prod.fst <$> _ = _
    rw [bind_of_ok looked, if_pos short, if_pos short]
    rfl
  · have present : headerSize ≤ data.size := Nat.not_lt.mp short
    have word (i : Nat) (h : i + 4 ≤ headerSize) :
        int32 ⟨data, i⟩ = .ok (wordAt data i, ⟨data, i + 4⟩) :=
      int32_of_fits (Nat.le_trans h present)
    rw [if_neg short]
    show Prod.fst <$> _ = Except.mapError _ (Opcode.ofNumber (wordAt data 12) >>= _)
    rw [bind_of_ok looked, if_neg short]
    dsimp only
    rw [bind_of_ok (word 0 (by decide)), bind_of_ok (word 4 (by decide)), bind_of_ok (word 8 (by decide)),
      bind_of_ok (word 12 (by decide))]
    cases Opcode.ofNumber (wordAt data 12) with
    | error failure => rfl
    | ok opcode =>
      rw [bind_of_ok (a := opcode) rfl]
      show _ = Except.mapError _ (if (wordAt data 0).toInt ≠ data.size then _ else _)
      by_cases sized : (wordAt data 0).toInt = data.size
      · rw [if_neg (mt length_ne_iff.mp (not_not_intro sized)), if_neg (not_not_intro sized)]
        rfl
      · rw [if_pos (length_ne_iff.mpr sized), if_pos sized]
        rfl

/-! ### Requests -/

theorem queryRest_alike (id : Int32) {b : Body} (inside : b.pos ≤ b.data.size) :
    queryRest id b = (Request.queryPieces id b).mapError .refused := by
  unfold queryRest Request.queryPieces
  refine need_bind inside fun fits => ?_
  rw [bind_of_ok (int32_of_fits fits)]
  refine bind_alike (zeroEnded_alike fits) fun collection m read => ?_
  have inside := inside_zeroEnded read
  refine need_bind inside fun fits => ?_
  have skip : Bytes.toInt32 ((m.data.extract m.pos (m.pos + 8)).extract 0 4) = wordAt m.data m.pos :=
    wordAt_extract (k := 0) (by omega)
  have numberToReturn : Bytes.toInt32 ((m.data.extract m.pos (m.pos + 8)).extract 4 8) =
      wordAt m.data (m.pos + 4) := wordAt_extract (k := 4) (by omega)
  rw [skip, numberToReturn, bind_of_ok (int32_of_fits (by omega)),
    bind_of_ok (int32_of_fits (by dsimp only; omega))]
  refine bind_alike (document_alike fits) fun query m read => ?_
  have inside := inside_document read
  rw [bind_of_ok (remaining_of_inside inside), size_rest, Pieces.bind_of_ok (Pieces.atEnd_apply m)]
  by_cases ended : m.data.size ≤ m.pos
  · rw [if_pos (Nat.sub_eq_zero_of_le ended), if_pos (decide_eq_true ended)]
    rfl
  · rw [if_neg (by omega), if_neg (by simpa using ended)]
    exact bind_alike (map_alike (document_alike inside)) fun _ _ _ => rfl

theorem moreRest_alike (id : Int32) {b : Body} (inside : b.pos ≤ b.data.size) :
    moreRest id b = (Request.morePieces id b).mapError .refused := by
  have discarded {f : PUnit → Pieces Request} :
      (discard (Pieces.take 4 "reserved field") >>= f) =
        (Pieces.take 4 "reserved field" >>= fun _ => f ⟨⟩) := by
    rw [discard, map_const]
    simp
  unfold moreRest Request.morePieces
  rw [discarded]
  refine need_bind inside fun fits => ?_
  rw [bind_of_ok (advance_of_fits fits)]
  refine bind_alike (zeroEnded_alike fits) fun collection m read => ?_
  have inside := inside_zeroEnded read
  refine need_bind inside fun fits => ?_
  have numberToReturn : Bytes.toInt32 ((m.data.extract m.pos (m.pos + 12)).extract 0 4) =
      wordAt m.data m.pos := wordAt_extract (k := 0) (by omega)
  have cursorId : (m.data.extract m.pos (m.pos + 12)).extract 4 12 =
      m.data.extract (m.pos + 4) (m.pos + 12) := by
    rw [ByteArray.extract_extract, Nat.min_self]
  rw [numberToReturn, cursorId, bind_of_ok (int32_of_fits (by omega)),
    bind_of_ok (int64_of_fits (by dsimp only; omega))]
  rfl

/-- The loop gets by with one step for every eight bytes, and reads the cursors that stand there. -/
theorem cursorIds_eq {allowance declared : Nat} {b : Body} (allowed : declared ≤ allowance)
    (fits : b.pos + 8 * declared ≤ b.data.size) :
    cursorIds allowance declared b =
      .ok ((List.range declared).map fun i =>
          Bytes.toInt64 (b.data.extract (b.pos + 8 * i) (b.pos + 8 * i + 8)),
        { b with pos := b.pos + 8 * declared }) := by
  induction declared generalizing allowance b with
  | zero => cases allowance <;> rfl
  | succ declared ih =>
    cases allowance with
    | zero => omega
    | succ allowance =>
      have next (i : Nat) : b.pos + 8 + 8 * i = b.pos + 8 * (i + 1) := by omega
      have rest := @ih allowance { b with pos := b.pos + 8 } (by omega) (by dsimp only; omega)
      simp only [next] at rest
      rw [cursorIds, bind_of_ok (int64_of_fits (by omega)), bind_of_ok rest, List.range_succ_eq_map,
        List.map_cons, List.map_map]
      rfl

theorem killRest_alike (id : Int32) {b : Body} (inside : b.pos ≤ b.data.size) :
    killRest id b = (Request.killPieces id b).mapError .refused := by
  unfold killRest Request.killPieces
  refine need_bind inside fun fits => ?_
  have count : Bytes.toInt32 ((b.data.extract b.pos (b.pos + 8)).extract 4 8) =
      wordAt b.data (b.pos + 4) := wordAt_extract (k := 4) (by omega)
  rw [count, bind_of_ok (advance_of_fits (by omega)), bind_of_ok (int32_of_fits (by dsimp only; omega))]
  dsimp only
  refine guard_alike fun _ => ?_
  refine need_bind fits fun fits => ?_
  generalize (wordAt b.data (b.pos + 4)).toInt.toNat = declared at *
  dsimp only [Nat.add_assoc, Nat.reduceAdd] at fits
  have ids : ((List.range declared).map fun i => Bytes.toInt64
        ((b.data.extract (b.pos + 8) (b.pos + 8 + declared * 8)).extract (8 * i) (8 * i + 8))) =
      (List.range declared).map fun i =>
        Bytes.toInt64 (b.data.extract (b.pos + 8 + 8 * i) (b.pos + 8 + 8 * i + 8)) := by
    refine List.map_congr_left fun i hi => ?_
    have before := List.mem_range.mp hi
    rw [ByteArray.extract_extract, Nat.min_eq_left (by omega), Nat.add_assoc (b.pos + 8)]
  have read := @cursorIds_eq ((b.data.size - (b.pos + 8)) / 8) declared ⟨b.data, b.pos + 8⟩ (by omega)
    (by dsimp only; omega)
  have rest := remaining_of_inside (b := ⟨b.data, b.pos + 8⟩) (by dsimp only; omega)
  rw [bind_of_ok rest, size_rest, bind_of_ok read]
  dsimp only
  rw [← ids, Nat.mul_comm 8]
  rfl

/-- What goes on behind the header of a message ends as what starts there. -/
theorem body_eq {α : Type} {data : ByteArray} {s : Stepwise α} {p : Pieces α}
    (present : headerSize ≤ data.size)
    (same : s ⟨data, headerSize⟩ = (p ⟨data, headerSize⟩).mapError .refused) :
    (advance headerSize >>= fun _ => s).run' ⟨data, 0⟩ =
      (p ⟨data, headerSize⟩ >>= fun r => pure r.1).mapError .refused := by
  have front : advance headerSize ⟨data, 0⟩ = .ok ((), ⟨data, headerSize⟩) :=
    advance_of_fits ((Nat.zero_add headerSize).symm ▸ present)
  show Prod.fst <$> _ = _
  rw [bind_of_ok front, same]
  cases p ⟨data, headerSize⟩ <;> rfl

theorem request_eq (data : ByteArray) : request data = (Request.decode data).mapError .refused := by
  unfold request Request.decode
  rw [header_eq]
  cases read : Header.ofBytes data with
  | error failure => rfl
  | ok head =>
    obtain ⟨present, -⟩ := Header.ofBytes_eq_ok_iff.mp read
    obtain ⟨length, id, responseTo, opcode⟩ := head
    cases opcode with
    | query => exact body_eq present (queryRest_alike id present)
    | getMore => exact body_eq present (moreRest_alike id present)
    | killCursors => exact body_eq present (killRest_alike id present)
    | reply =>
      exact body_eq (s := refuse (.protocol .replyNotRequest))
        (p := throw (.protocol .replyNotRequest)) present rfl

/-! ### Replies -/

theorem get_bind {α : Type} {f : Body → Stepwise α} {b : Body} : (get >>= f) b = f b b := rfl

theorem rawDocument_alike {b : Body} (inside : b.pos ≤ b.data.size) :
    rawDocument b = (Reply.rawDocument b).mapError .refused := by
  unfold rawDocument Reply.rawDocument
  refine bind_alike (documentSize_alike inside) fun size m told => ?_
  rw [get_bind, Pieces.get_bind]
  refine guard_alike fun whole => ?_
  have fits := Nat.not_lt.mp whole
  dsimp only
  rw [bind_of_ok (slice_of_fits fits), bind_of_ok (advance_of_fits fits),
    Pieces.take_eq_ok_iff.mpr ⟨fits, rfl, rfl⟩]
  rfl

/-- At the end neither loop takes another step. -/
theorem slices_atEnd (allowance fuel : Nat) (docs : Array ByteArray) {b : Body}
    (ended : b.data.size ≤ b.pos) :
    slices allowance docs b = (Reply.rawDocuments fuel docs b).mapError .refused := by
  rw [slices.eq_def, get_bind, if_pos ended]
  cases fuel with
  | zero => rfl
  | succ fuel =>
    rw [Reply.rawDocuments, Pieces.bind_of_ok (Pieces.atEnd_apply b), if_pos (decide_eq_true ended)]
    rfl

/-- The loop gets by with one step for every five bytes, the last ones counted as five. -/
theorem slices_eq {allowance fuel : Nat} {docs : Array ByteArray} {b : Body} (inside : b.pos ≤ b.data.size)
    (allowed : b.data.size - b.pos ≤ 5 * allowance) (enough : b.data.size - b.pos ≤ fuel) :
    slices allowance docs b = (Reply.rawDocuments fuel docs b).mapError .refused := by
  have least : minDocumentSize = 5 := rfl
  induction allowance generalizing fuel docs b with
  | zero => exact slices_atEnd 0 fuel docs (by omega)
  | succ allowance ih =>
    by_cases ended : b.data.size ≤ b.pos
    · exact slices_atEnd (allowance + 1) fuel docs ended
    · obtain ⟨fuel, rfl⟩ : ∃ less, fuel = less + 1 := ⟨fuel - 1, by omega⟩
      rw [slices, get_bind, if_neg ended, Reply.rawDocuments, Pieces.bind_of_ok (Pieces.atEnd_apply b),
        if_neg (by simpa using ended)]
      refine bind_alike (rawDocument_alike inside) fun raw m read => ?_
      obtain ⟨cut, -, large, rfl⟩ := Reply.rawDocument_eq_ok_iff.mp read
      have whole := Reply.size_le_of_cut cut (by omega)
      exact ih whole (by dsimp only; omega) (by dsimp only; omega)

theorem replyRest_alike (head : Header) {data : ByteArray} (present : headerSize ≤ data.size) :
    replyRest head ⟨data, headerSize⟩ = (Reply.pieces head ⟨data, headerSize⟩).mapError .refused := by
  by_cases whole : headerSize + Reply.fixedSize ≤ data.size
  · have fits (i n : Nat) (h : i + n ≤ 36) : i + n ≤ data.size := Nat.le_trans h whole
    have flags : int32 ⟨data, headerSize⟩ = .ok (wordAt data 16, ⟨data, 20⟩) :=
      int32_of_fits (fits 16 4 (by decide))
    have cursorId : int64 ⟨data, 20⟩ = .ok (Bytes.toInt64 (data.extract 20 28), ⟨data, 28⟩) :=
      int64_of_fits (fits 20 8 (by decide))
    have startingFrom : int32 ⟨data, 28⟩ = .ok (wordAt data 28, ⟨data, 32⟩) :=
      int32_of_fits (fits 28 4 (by decide))
    have declared : int32 ⟨data, 32⟩ = .ok (wordAt data 32, ⟨data, headerSize + Reply.fixedSize⟩) :=
      int32_of_fits (fits 32 4 (by decide))
    have rest := remaining_of_inside (b := ⟨data, headerSize + Reply.fixedSize⟩) whole
    unfold replyRest
    rw [Reply.pieces_of_whole whole, bind_of_ok (need_of_fits (b := ⟨data, headerSize⟩) whole),
      bind_of_ok flags, bind_of_ok cursorId, bind_of_ok startingFrom, bind_of_ok declared, bind_of_ok rest,
      size_rest]
    refine bind_alike (slices_eq whole (by omega) (Nat.sub_le _ _)) fun documents m read => ?_
    exact guard_alike fun _ => rfl
  · have short : Pieces.take Reply.fixedSize "reply body" ⟨data, headerSize⟩ =
        .error (.protocol (.truncated "reply body")) := if_pos (Nat.not_le.mp whole)
    unfold replyRest Reply.pieces
    rw [bind_of_error (need_of_short (b := ⟨data, headerSize⟩) present whole), bind_of_error short]
    rfl

theorem reply_eq (data : ByteArray) : reply data = (Reply.decode data).mapError .refused := by
  unfold reply Reply.decode
  rw [header_eq]
  cases read : Header.ofBytes data with
  | error failure => rfl
  | ok head =>
    obtain ⟨present, -⟩ := Header.ofBytes_eq_ok_iff.mp read
    have body := body_eq present (replyRest_alike head present)
    show (if head.opcode ≠ .reply then _ else _) =
      Except.mapError _ (if head.opcode ≠ .reply then _ else _)
    by_cases kind : head.opcode ≠ .reply
    · rw [if_pos kind, if_pos kind]
      rfl
    · rw [if_neg kind, if_neg kind]
      exact body

/-- Whatever bytes are received and whatever counts and lengths they declare, the decoders of messages end as
`Header.ofBytes`, `Request.decode` and `Reply.decode` do: with a result or a refusal. So no read goes beyond
the message, and each loop gets by with the steps that it is allowed. Every document that a reply is cut into
takes five of its bytes, and reading inside of a document does not depend on what lies beyond it. -/
theorem decoders_within_bounds :
    (∀ data : ByteArray,
      header.run' ⟨data, 0⟩ = (Header.ofBytes data).mapError .refused ∧
      request data = (Request.decode data).mapError .refused ∧
      reply data = (Reply.decode data).mapError .refused) ∧
    (∀ (data : ByteArray) (reply : Reply), Reply.decode data = .ok reply →
      headerSize + Reply.fixedSize + 5 * reply.documents.length ≤ data.size) ∧
    ∀ beyond : Beyond, beyond.IsUnseen := by
  refine ⟨fun data => ⟨header_eq data, request_eq data, reply_eq data⟩, fun data reply read => ?_,
    Beyond.isUnseen⟩
  obtain ⟨-, head, slices, -, -, tiles, -, rfl⟩ := Reply.decode_eq_ok_iff.mp read
  exact tiles.length_le

/-- A message that gives up more cursors than it could hold, and a reply that ends in the middle of a word. -/
example :
    request ⟨#[24, 0, 0, 0, 1, 0, 0, 0, 0, 0, 0, 0, 215, 7, 0, 0, 0, 0, 0, 0, 255, 255, 255, 127]⟩ =
      .error (.refused (.protocol (.truncated "cursor ids"))) ∧
    reply ⟨#[39, 0, 0, 0, 1, 0, 0, 0, 0, 0, 0, 0, 1, 0, 0, 0, 0, 0, 0, 0, 0, 0, 0, 0, 0, 0, 0, 0, 0, 0, 0, 0,
        1, 0, 0, 0, 5, 0, 0]⟩ =
      .error (.refused (.wire .endOfInput)) := by
  constructor <;> cbv

end Stepwise

end DocumentClient
