import DocumentClient.Proofs.Wire.Framing
import DocumentClient.Wire.Writer.Buffer

/-!
# One buffer for all containers

A writer on a buffer adds bytes at the end only, and goes back once for each container, to write its length
over the zeros that it has left there. A `Writer` keeps the bytes of each open container by itself and needs
no places. Both do the same: what a `Writer` keeps apart lies in the buffer one behind the other, the outermost
container first, each behind zeros in place of its length.

* `Writer.inBuffer w`: the writer as it lies in a buffer.
* `BufferWrite.Realizes y x`: in a buffer, `y` does what `x` does on containers that are kept apart.
* `BufferWriter.Extends`: what the buffer held at first is still there, and all that may be patched lies behind
  it.

Results:
1. `BufferWrite.patchLength_eq`: the length goes over the zeros and nothing else changes.
2. `BufferWrite.realizes_value`, `BufferWrite.alone_document`: values and documents, by induction on the value,
   its fields and its items.
3. `BufferWrite.realizes_runAll`: all that is asked of a writer, failures included.
4. `BufferWriter.extends_of_runAll`: at no time is anything changed of what the buffer held at first.
5. `BufferWriter.encodes_of_runAll`: what a finished writer gives out.
-/

namespace DocumentClient

open Outcome

/-! ## Bytes -/

namespace Bytes

theorem push_eq_append (bytes : ByteArray) (b : UInt8) :
    bytes.push b = bytes ++ ByteArray.empty.push b := by
  apply ByteArray.ext
  simp

/-- Bytes that are written over as many others. -/
theorem copySlice_between {old : ByteArray} (bytes front back : ByteArray) (same : old.size = bytes.size) :
    bytes.copySlice 0 (front ++ old ++ back) front.size bytes.size = front ++ bytes ++ back := by
  have kept : (front ++ old ++ back).extract 0 front.size = front := by
    rw [ByteArray.append_assoc]
    exact ByteArray.extract_append_eq_left rfl
  have behind : (front ++ old ++ back).extract (front.size + bytes.size) (front ++ old ++ back).size = back :=
    ByteArray.extract_append_eq_right (by simp [same]) (by simp)
  have whole : bytes.extract 0 (0 + bytes.size) = bytes := by
    rw [Nat.zero_add, ByteArray.extract_zero_size]
  have width : min bytes.size (bytes.data.size - 0) = bytes.size := Nat.min_self _
  rw [ByteArray.copySlice_eq_append, kept, whole, width]
  exact congrArg _ behind

end Bytes

/-! ## Containers in a buffer -/

namespace Writer

/-- The bytes of the open containers behind those outside. -/
def flat (base : ByteArray) : List OpenContainer → ByteArray
  | [] => base
  | container :: outer => flat base outer ++ lengthPlaceholder ++ container.body

/-- The open containers by where they begin. -/
def contexts (base : ByteArray) : List OpenContainer → List Context
  | [] => []
  | container :: outer => ⟨(flat base outer).size, container.nextIndex⟩ :: contexts base outer

/-- The writer as it lies in a buffer. -/
def inBuffer (w : Writer) : BufferWriter where
  buffer := flat w.base w.containers
  contexts := contexts w.base w.containers
  phase := w.phase
  pendingName := w.pendingName

variable {base : ByteArray}

theorem length_contexts (containers : List OpenContainer) :
    (contexts base containers).length = containers.length := by
  induction containers with
  | nil => rfl
  | cons container outer ih => exact congrArg Nat.succ ih

theorem isEmpty_contexts (containers : List OpenContainer) :
    (contexts base containers).isEmpty = containers.isEmpty := by
  cases containers <;> rfl

theorem inArray_inBuffer (w : Writer) : w.inBuffer.inArray = w.inArray := by
  obtain ⟨base, _ | ⟨container, outer⟩, phase, name⟩ := w <;> rfl

/-- Bytes that are added to the innermost container come last. -/
theorem inBuffer_append (w : Writer) (bytes : ByteArray) :
    (w.append bytes).inBuffer = { w.inBuffer with buffer := w.inBuffer.buffer ++ bytes } := by
  obtain ⟨base, _ | ⟨⟨body, index⟩, outer⟩, phase, name⟩ := w
  · rfl
  · simp only [append, inBuffer, flat, contexts, ByteArray.append_assoc]

theorem append_append (w : Writer) (front back : ByteArray) :
    (w.append front).append back = w.append (front ++ back) := by
  obtain ⟨base, _ | ⟨⟨body, index⟩, outer⟩, phase, name⟩ := w
  · simp only [append, ByteArray.append_assoc]
  · simp only [append, ByteArray.append_assoc]

/-- Parts that are added together lie one behind the other. -/
theorem inBuffer_appended (w : Writer) (length text bytes : ByteArray) :
    (w.append (length ++ text ++ bytes)).inBuffer =
      ⟨w.inBuffer.buffer ++ length ++ (text ++ bytes), w.inBuffer.contexts, w.phase, w.pendingName⟩ := by
  rw [w.inBuffer_append, ByteArray.append_assoc, ← ByteArray.append_assoc]
  rfl

theorem flat_append (front : ByteArray) (containers : List OpenContainer) :
    flat (front ++ base) containers = front ++ flat base containers := by
  induction containers with
  | nil => rfl
  | cons container outer ih => simp only [flat, ih, ByteArray.append_assoc]

theorem size_le_flat (containers : List OpenContainer) : base.size ≤ (flat base containers).size := by
  induction containers with
  | nil => exact Nat.le_refl _
  | cons container outer ih =>
    rw [flat, ByteArray.size_append, ByteArray.size_append]
    omega

/-- All containers begin behind the bytes outside, with zeros as long as they are open. -/
theorem zeros_of_mem_contexts {containers : List OpenContainer} {context : Context}
    (mem : context ∈ contexts base containers) :
    base.size ≤ context.start ∧ ∃ before behind, before.size = context.start ∧
      flat base containers = before ++ lengthPlaceholder ++ behind := by
  induction containers with
  | nil => cases mem
  | cons container outer ih =>
    rcases List.mem_cons.mp mem with rfl | mem
    · exact ⟨size_le_flat outer, flat base outer, container.body, rfl, rfl⟩
    · obtain ⟨after, before, behind, size, eq⟩ := ih mem
      refine ⟨after, before, behind ++ lengthPlaceholder ++ container.body, size, ?_⟩
      simp only [flat, eq, ByteArray.append_assoc]

end Writer

/-! ## Steps -/

namespace BufferWrite

variable {α β : Type}

/-- In a buffer, `y` does what `x` does on containers that are kept apart. -/
def Realizes (y : BufferWrite α) (x : Write α) : Prop :=
  Simulates Writer.inBuffer y x

theorem Realizes.bind {y : BufferWrite α} {x : Write α} {next' : α → BufferWrite β}
    {next : α → Write β} (first : Realizes y x) (rest : ∀ a, Realizes (next' a) (next a)) :
    Realizes (y >>= next') (x >>= next) :=
  Simulates.bind first rest

theorem realizes_pure (a : α) : Realizes (pure a) (pure a) := simulates_pure a

theorem realizes_throw (fault : Fault) : Realizes (throw fault : BufferWrite α) (throw fault) :=
  simulates_throw fault

/-! ### Parts of values -/

theorem realizes_put (bytes : ByteArray) : Realizes (put bytes) (Write.put bytes) := fun w =>
  congrArg (EStateM.Result.ok ()) (w.inBuffer_append bytes).symm

theorem realizes_putByte (b : UInt8) : Realizes (putByte b) (Write.put (ByteArray.empty.push b)) := by
  have same : putByte b = put (ByteArray.empty.push b) := by
    funext w
    exact congrArg (fun buffer => EStateM.Result.ok () { w with buffer := buffer })
      (Bytes.push_eq_append w.buffer b)
  rw [same]
  exact realizes_put _

theorem put_append (front back : ByteArray) :
    Write.put (front ++ back) = Write.put front >>= fun _ => Write.put back := by
  funext w
  exact congrArg (EStateM.Result.ok ()) (w.append_append front back).symm

theorem realizes_putLength (n : Nat) : Realizes (putLength n) (Write.putPart (lengthBytes n)) := by
  unfold putLength lengthBytes
  split
  · exact realizes_throw _
  · exact realizes_put _

theorem putPart_textBytes (text : String) :
    Write.putPart (textBytes text) = Write.putPart (lengthBytes (text.utf8ByteSize + 1)) >>= fun _ =>
      Write.put text.toUTF8 >>= fun _ => Write.put (ByteArray.empty.push 0) := by
  unfold textBytes
  cases lengthBytes (text.utf8ByteSize + 1) with
  | error fault => rfl
  | ok size =>
    show Write.put ((size ++ text.toUTF8).push 0) = _
    rw [Bytes.push_eq_append, ByteArray.append_assoc, put_append, put_append]
    rfl

theorem realizes_putText (text : String) : Realizes (putText text) (Write.putPart (textBytes text)) := by
  rw [putPart_textBytes]
  exact (realizes_putLength _).bind fun _ => (realizes_put _).bind fun _ => realizes_putByte 0

theorem realizes_putZeroEnded (text : String) :
    Realizes (putZeroEnded text) (Write.putPart (zeroEndedBytes text)) := by
  unfold putZeroEnded zeroEndedBytes
  split
  · exact realizes_throw _
  · have parts : Write.put (text.toUTF8.push 0) =
        Write.put text.toUTF8 >>= fun _ => Write.put (ByteArray.empty.push 0) := by
      rw [Bytes.push_eq_append, put_append]
    show Realizes _ (Write.put (text.toUTF8.push 0))
    rw [parts]
    exact (realizes_put _).bind fun _ => realizes_putByte 0

/-- The length goes over the zeros, and nothing in front of them or behind them changes. -/
theorem patchLength_eq (front body : ByteArray) (contexts : List Context) (phase : WritePhase)
    (name : Option String) :
    patchLength front.size ⟨front ++ lengthPlaceholder ++ body, contexts, phase, name⟩ =
      match lengthBytes (4 + body.size) with
      | .ok length => .ok () ⟨front ++ length ++ body, contexts, phase, name⟩
      | .error fault => .error fault ⟨front ++ lengthPlaceholder ++ body, contexts, phase, name⟩ := by
  have zeros : lengthPlaceholder.size = 4 := rfl
  have size : (front ++ lengthPlaceholder ++ body).size - front.size = 4 + body.size := by
    rw [ByteArray.size_append, ByteArray.size_append, zeros]
    omega
  have patched := Bytes.copySlice_between (Bytes.numeral 4 (4 + body.size)) front body zeros
  unfold patchLength lengthBytes
  rw [get_bind]
  dsimp only
  rw [size]
  by_cases large : maxDocumentSize < 4 + body.size
  · rw [if_pos large, if_pos large]
    rfl
  · rw [if_neg large, if_neg large]
    dsimp only
    rw [← patched]
    rfl

/-! ### Elements and containers -/

theorem realizes_name (text : String) : Realizes (name text) (Write.name text) := by
  intro w
  unfold name Write.name
  rw [get_bind, get_bind, w.inArray_inBuffer]
  exact simulates_guard rfl (simulates_guard rfl (simulates_guard rfl rfl))

/-- The name is used up in the same way, and the bytes are the same. -/
theorem realizes_beginValue (kind : Kind) : Realizes (beginValue kind) (Write.beginValue kind) := by
  have header (text : String) : Realizes (do putByte kind.tag; put text.toUTF8; putByte 0)
      (Write.put ((ByteArray.empty.push kind.tag ++ text.toUTF8).push 0)) := by
    rw [Bytes.push_eq_append, put_append, put_append, bind_assoc]
    exact (realizes_putByte _).bind fun _ => (realizes_put _).bind fun _ => realizes_putByte 0
  rintro ⟨base, containers, phase, pending⟩
  cases phase with
  | value =>
    cases pending with
    | none => rfl
    | some text => exact header text ⟨base, containers, .value, none⟩
  | name =>
    rcases containers with _ | ⟨⟨body, _ | index⟩, outer⟩
    · rfl
    · rfl
    · exact header (toString index) ⟨base, ⟨body, some (index + 1)⟩ :: outer, .name, pending⟩
  | initial | done => rfl

theorem realizes_endValue : Realizes endValue Write.endValue := fun _ => rfl

theorem realizes_openContainer (index : Option Nat) :
    Realizes (openContainer index) (Write.openContainer index) := by
  intro w
  unfold openContainer Write.openContainer
  rw [get_bind, get_bind]
  have depth : w.inBuffer.contexts.length = w.containers.length := Writer.length_contexts _
  rw [depth]
  refine simulates_guard rfl ?_
  have zeros : Writer.flat w.base (⟨.empty, index⟩ :: w.containers) =
      Writer.flat w.base w.containers ++ lengthPlaceholder := ByteArray.append_empty
  show EStateM.Result.ok () (BufferWriter.mk _ _ _ _) = .ok () (BufferWriter.mk _ _ _ _)
  rw [zeros]
  rfl

/-- The bytes of a container that ends lie behind its zeros already, up to the terminator. -/
theorem realizes_closeContainer : Realizes closeContainer Write.closeContainer := by
  rintro ⟨base, _ | ⟨⟨body, index⟩, outer⟩, phase, name⟩
  · rfl
  · have terminated : (Writer.flat base (⟨body, index⟩ :: outer)).push 0 =
        Writer.flat base outer ++ lengthPlaceholder ++ body.push 0 := by
      rw [Bytes.push_eq_append, Bytes.push_eq_append body, ← ByteArray.append_assoc]
      rfl
    have size : 4 + (body.push 0).size = body.size + minDocumentSize := by
      rw [ByteArray.size_push, minDocumentSize]
      omega
    have bytes (length : ByteArray) : Writer.flat base outer ++ length ++ body.push 0 =
        Writer.flat base outer ++ (length ++ body).push 0 := by
      rw [Bytes.push_eq_append, Bytes.push_eq_append (length ++ body)]
      simp only [ByteArray.append_assoc]
    have patched := patchLength_eq (Writer.flat base outer) (body.push 0)
      (Writer.contexts base outer) phase name
    rw [size] at patched
    unfold closeContainer Write.closeContainer
    rw [get_bind, get_bind]
    dsimp only [Writer.inBuffer, Writer.contexts]
    rw [set_bind, set_bind]
    have ended :
        putByte 0 ⟨Writer.flat base (⟨body, index⟩ :: outer), Writer.contexts base outer, phase, name⟩ =
          .ok () ⟨Writer.flat base outer ++ lengthPlaceholder ++ body.push 0, Writer.contexts base outer,
            phase, name⟩ := by
      rw [← terminated]
      rfl
    rw [bind_of_ok ended]
    cases fits : lengthBytes (body.size + minDocumentSize) with
    | error fault =>
      rw [fits] at patched
      rw [bind_eq_error_iff.mpr (.inl patched), bytes]
      exact congrArg (EStateM.Result.error fault) (Writer.inBuffer_append ⟨base, outer, phase, name⟩ _).symm
    | ok length =>
      rw [fits] at patched
      rw [bind_of_ok patched, bytes, Writer.isEmpty_contexts]
      exact congrArg (fun v : BufferWriter =>
          EStateM.Result.ok () { v with phase := if outer.isEmpty then .done else .name })
        (Writer.inBuffer_append ⟨base, outer, phase, name⟩ _).symm

theorem realizes_startDocument : Realizes startDocument Write.startDocument := by
  intro w
  unfold startDocument Write.startDocument
  rw [get_bind, get_bind]
  by_cases inner : w.phase ≠ .initial
  · rw [if_pos inner, if_pos (show w.inBuffer.phase ≠ .initial from inner)]
    exact (realizes_beginValue .document).bind (fun _ => realizes_openContainer none) w
  · rw [if_neg inner, if_neg (show ¬ w.inBuffer.phase ≠ .initial from inner)]
    exact realizes_openContainer none w

theorem realizes_startArray : Realizes startArray Write.startArray :=
  (realizes_beginValue .array).bind fun _ => realizes_openContainer (some 0)

theorem realizes_endDocument : Realizes endDocument Write.endDocument := by
  intro w
  unfold endDocument Write.endDocument
  rw [get_bind, get_bind, w.inArray_inBuffer]
  exact simulates_guard rfl (realizes_closeContainer w)

theorem realizes_endArray : Realizes endArray Write.endArray := by
  intro w
  unfold endArray Write.endArray
  rw [get_bind, get_bind, w.inArray_inBuffer]
  exact simulates_guard rfl (realizes_closeContainer w)

/-! ## Values -/

theorem realizes_element {kind : Kind} {body : BufferWrite Unit} {part : Except Fault ByteArray}
    (h : Realizes body (Write.putPart part)) : Realizes (element kind body) (Write.scalar kind part) :=
  (realizes_beginValue kind).bind fun _ => h.bind fun _ => realizes_endValue

/-- A value whose bytes are known. -/
theorem realizes_fixed (kind : Kind) (bytes : ByteArray) :
    Realizes (element kind (put bytes)) (Write.scalar kind (.ok bytes)) :=
  realizes_element (realizes_put bytes)

/-- A value without bytes. -/
theorem realizes_bare (kind : Kind) :
    Realizes (element kind (pure ())) (Write.scalar kind (.ok .empty)) := by
  refine realizes_element fun w => ?_
  show EStateM.Result.ok () w.inBuffer = .ok () (w.append .empty).inBuffer
  rw [w.inBuffer_append, ByteArray.append_empty]

theorem realizes_boolean (b : Bool) : Realizes (boolean b) (Write.boolean b) :=
  realizes_element (realizes_putByte _)

theorem realizes_textOf (kind : Kind) (text : String) :
    Realizes (element kind (putText text)) (Write.scalar kind (textBytes text)) :=
  realizes_element (realizes_putText text)

theorem realizes_binary (data : Binary) : Realizes (binary data) (Write.binary data) := by
  refine (realizes_beginValue .binary).bind fun _ => ?_
  have last : Realizes (put data.bytes >>= fun _ => endValue)
      (Write.put data.bytes >>= fun _ => Write.endValue) :=
    (realizes_put _).bind fun _ => realizes_endValue
  by_cases old : data.subtype = .binaryOld
  · simp only [if_pos old, bind_assoc]
    exact (realizes_putLength _).bind fun _ => (realizes_putByte _).bind fun _ =>
      (realizes_putLength _).bind fun _ => last
  · simp only [if_neg old, bind_assoc]
    exact (realizes_putLength _).bind fun _ => (realizes_putByte _).bind fun _ => last

theorem realizes_regularExpression (pattern options : String) :
    Realizes (regularExpression pattern options) (Write.regularExpression pattern options) := by
  refine (realizes_beginValue _).bind fun _ => ?_
  rw [bind_assoc]
  exact (realizes_putZeroEnded _).bind fun _ => (realizes_putZeroEnded _).bind fun _ => realizes_endValue

theorem realizes_dbPointer (collection : String) (id : ObjectId) :
    Realizes (dbPointer collection id) (Write.dbPointer collection id) := by
  refine (realizes_beginValue _).bind fun _ => ?_
  rw [bind_assoc]
  exact (realizes_putText _).bind fun _ => (realizes_put _).bind fun _ => realizes_endValue

theorem realizes_documentOf {inner : BufferWrite Unit} {inner' : Write Unit} (h : Realizes inner inner') :
    Realizes (documentOf inner) (Write.documentOf inner') :=
  realizes_startDocument.bind fun _ => h.bind fun _ => realizes_endDocument

theorem realizes_arrayOf {inner : BufferWrite Unit} {inner' : Write Unit} (h : Realizes inner inner') :
    Realizes (arrayOf inner) (Write.arrayOf inner') :=
  realizes_startArray.bind fun _ => h.bind fun _ => realizes_endArray

/-! ### Scopes -/

/-- A writer that leaves a container and is done has left the outermost one. -/
theorem containers_of_closeContainer {w w' : Writer} (ok : Write.closeContainer w = .ok () w')
    (done : w'.phase = .done) : w'.containers = [] := by
  obtain ⟨base, _ | ⟨⟨body, index⟩, outer⟩, phase, name⟩ := w
  · cases ok
  · unfold Write.closeContainer at ok
    rw [get_bind] at ok
    dsimp only at ok
    rw [set_bind] at ok
    cases fits : lengthBytes (body.size + minDocumentSize) with
    | error fault =>
      rw [fits] at ok
      cases ok
    | ok length =>
      rw [fits] at ok
      cases ok
      cases outer with
      | nil => rfl
      | cons next rest => cases done

theorem containers_of_documentOf {inner : Write Unit} {w w' : Writer}
    (ok : Write.documentOf inner w = .ok () w') (done : w'.phase = .done) : w'.containers = [] := by
  obtain ⟨⟨⟩, m, -, ok⟩ := bind_eq_ok_iff.mp ok
  obtain ⟨⟨⟩, m', -, ok⟩ := bind_eq_ok_iff.mp ok
  unfold Write.endDocument at ok
  rw [get_bind] at ok
  exact containers_of_closeContainer (guard_eq_ok_iff.mp ok).2 done

/-- A finished writer has nothing but the bytes outside of containers. -/
theorem finish_inBuffer {w : Writer} (closed : w.phase = .done → w.containers = []) :
    w.inBuffer.finish = w.finish := by
  unfold BufferWriter.finish Writer.finish
  by_cases done : w.phase = .done
  · have flat : w.inBuffer.buffer = w.base := congrArg (Writer.flat w.base) (closed done)
    rw [flat]
    rfl
  · rw [if_pos done, if_pos (show w.inBuffer.phase ≠ .done from done)]
    rfl

/-- A writer of its own makes the same bytes. -/
theorem alone_documentOf {inner : BufferWrite Unit} {inner' : Write Unit} (h : Realizes inner inner') :
    alone (documentOf inner) = Write.alone (Write.documentOf inner') := by
  have image : documentOf inner {} = mapState Writer.inBuffer (Write.documentOf inner' {}) :=
    realizes_documentOf h {}
  unfold alone Write.alone
  rw [image]
  cases ended : Write.documentOf inner' {} with
  | error fault w => rfl
  | ok u w => exact finish_inBuffer (containers_of_documentOf ended)

theorem realizes_putAlone {inner : BufferWrite Unit} {inner' : Write Unit} (h : Realizes inner inner') :
    Realizes (putAlone (documentOf inner)) (Write.putPart (Write.alone (Write.documentOf inner'))) := by
  unfold putAlone
  rw [alone_documentOf h]
  cases Write.alone (Write.documentOf inner') with
  | ok bytes => exact realizes_put bytes
  | error fault => exact realizes_throw fault

/-- Code with its scope lies in the buffer behind zeros before its length is known. -/
theorem realizes_scopedCodeOf (code : String) {inner : BufferWrite Unit} {inner' : Write Unit}
    (h : Realizes inner inner') :
    Realizes (scopedCodeOf code (documentOf inner))
      (Write.scopedCodeOf code (Write.documentOf inner')) := by
  refine (realizes_beginValue _).bind fun _ w => ?_
  have zeros := realizes_put lengthPlaceholder w
  simp only [bind_assoc]
  rw [get_bind, bind_of_ok zeros]
  have coded := realizes_putText code (w.append lengthPlaceholder)
  cases told : textBytes code with
  | error fault =>
    rw [told] at coded
    rw [bind_eq_error_iff.mpr (.inl coded)]
    rfl
  | ok text =>
    rw [told] at coded
    rw [bind_of_ok coded]
    have added := realizes_putAlone h ((w.append lengthPlaceholder).append text)
    cases alone : Write.alone (Write.documentOf inner') with
    | error fault =>
      rw [alone] at added
      rw [bind_eq_error_iff.mpr (.inl added)]
      exact congrArg (fun v : Writer => EStateM.Result.error fault v.inBuffer) (w.append_append _ _)
    | ok bytes =>
      rw [alone] at added
      have parts : ((w.append lengthPlaceholder).append text).append bytes =
          w.append (lengthPlaceholder ++ text ++ bytes) := by
        rw [w.append_append, w.append_append]
      have whole := (congrArg Writer.inBuffer parts).trans (w.inBuffer_appended lengthPlaceholder text bytes)
      rw [bind_of_ok (added.trans (congrArg (EStateM.Result.ok ()) whole))]
      have patched := patchLength_eq w.inBuffer.buffer (text ++ bytes) w.inBuffer.contexts w.phase
        w.pendingName
      rw [ByteArray.size_append, ← Nat.add_assoc] at patched
      dsimp only
      cases fits : lengthBytes (4 + text.size + bytes.size) with
      | error fault =>
        rw [fits] at patched
        rw [bind_eq_error_iff.mpr (.inl patched)]
        exact congrArg (EStateM.Result.error fault) (w.inBuffer_appended lengthPlaceholder text bytes).symm
      | ok length =>
        rw [fits] at patched
        rw [bind_of_ok patched]
        exact congrArg (fun v : BufferWriter => EStateM.Result.ok () { v with phase := .name })
          (w.inBuffer_appended length text bytes).symm

mutual

/-- A value is written in the buffer as it is with containers apart. -/
theorem realizes_value : (v : Value) → Realizes (value v) (Write.value v)
  | .document entries => realizes_documentOf (realizes_fields entries)
  | .array values => realizes_arrayOf (realizes_items values)
  | .binary data => realizes_binary data
  | .regularExpression pattern options => realizes_regularExpression pattern options
  | .dbPointer collection id => realizes_dbPointer collection id
  | .javaScriptWithScope code scope => realizes_scopedCodeOf code (realizes_fields scope)
  | .boolean b => realizes_boolean b
  | .string text => realizes_textOf .string text
  | .javaScript code => realizes_textOf .javaScript code
  | .symbol text => realizes_textOf .symbol text
  | .undefined => realizes_bare .undefined
  | .null => realizes_bare .null
  | .minKey => realizes_bare .minKey
  | .maxKey => realizes_bare .maxKey
  | .double _ | .objectId _ | .dateTime _ | .int32 _ | .timestamp _ | .int64 _ | .decimal128 _ =>
    realizes_fixed _ _

theorem realizes_fields : (entries : List (String × Value)) →
    Realizes (fields entries) (Write.fields entries)
  | [] => realizes_pure ()
  | (text, v) :: rest =>
    (realizes_name text).bind fun _ => (realizes_value v).bind fun _ => realizes_fields rest

theorem realizes_items : (values : List Value) → Realizes (items values) (Write.items values)
  | [] => realizes_pure ()
  | v :: rest => (realizes_value v).bind fun _ => realizes_items rest

end

/-- In a buffer of its own a document has the bytes that it has with containers apart, or fails as it does
there. -/
theorem alone_document (doc : Document) : alone (document doc) = doc.encode :=
  alone_documentOf (realizes_fields doc.fields)

/-! ## Calls -/

/-- What a writer on a buffer does at a call. -/
def run : Writer.Call → BufferWrite Unit
  | .startDocument => startDocument
  | .endDocument => endDocument
  | .startArray => startArray
  | .endArray => endArray
  | .name text => name text
  | .double bits => double bits
  | .string text => string text
  | .binary data => binary data
  | .undefined => undefined
  | .objectId id => objectId id
  | .boolean b => boolean b
  | .dateTime t => dateTime t
  | .null => null
  | .regularExpression pattern options => regularExpression pattern options
  | .dbPointer collection id => dbPointer collection id
  | .javaScript code => javaScript code
  | .symbol text => symbol text
  | .javaScriptWithScope code scope => scopedCodeOf code (document scope)
  | .int32 n => int32 n
  | .timestamp t => timestamp t
  | .int64 n => int64 n
  | .decimal128 bytes => decimal128 bytes
  | .minKey => minKey
  | .maxKey => maxKey
  | .value v => value v
  | .document doc => document doc

/-- Calls one after another, up to the first that fails. -/
def runAll : List Writer.Call → BufferWrite Unit
  | [] => pure ()
  | call :: calls => do
    run call
    runAll calls

variable {call : Writer.Call} {calls : List Writer.Call} {v : Value}

theorem run_of_value? (h : call.value? = some v) : run call = value v := by
  cases call <;> cases h <;> rfl

theorem realizes_run (call : Writer.Call) : Realizes (run call) call.run := by
  cases hv : call.value? with
  | some v =>
    rw [run_of_value? hv, Writer.Call.run_of_value? hv]
    exact realizes_value v
  | none =>
    cases call with
    | startDocument => exact realizes_startDocument
    | endDocument => exact realizes_endDocument
    | startArray => exact realizes_startArray
    | endArray => exact realizes_endArray
    | name text => exact realizes_name text
    | _ => cases hv

theorem realizes_runAll (calls : List Writer.Call) : Realizes (runAll calls) (Writer.Call.runAll calls) := by
  induction calls with
  | nil => exact realizes_pure ()
  | cons call calls ih => exact (realizes_run call).bind fun _ => ih

theorem runAll_append (calls more : List Writer.Call) :
    runAll (calls ++ more) = runAll calls >>= fun _ => runAll more := by
  induction calls with
  | nil => exact (pure_bind _ _).symm
  | cons call calls ih =>
    rw [List.cons_append, runAll, runAll, ih, bind_assoc]

end BufferWrite

namespace BufferWriter

variable {calls : List Writer.Call} {base : ByteArray} {w : BufferWriter}

/-- The buffer holds what it held at first and what was written since, and each open container has zeros in
the second part that its length can go over. -/
structure Extends (w : BufferWriter) (front written : ByteArray) : Prop where
  buffer : w.buffer = front ++ written
  zeros : ∀ context ∈ w.contexts, front.size ≤ context.start ∧ ∃ before behind,
    before.size = context.start ∧ w.buffer = before ++ lengthPlaceholder ++ behind

/-- Whatever is asked of a writer, it changes nothing of what its buffer held at first, and what it adds does
not depend on it. -/
theorem extends_of_runAll (calls : List Writer.Call) :
    ∃ written, ∀ front, (left (BufferWrite.runAll calls) (.ofBytes front)).Extends front written := by
  let alone := left (Writer.Call.runAll calls) {}
  refine ⟨(Writer.inBuffer alone).buffer, fun front => ?_⟩
  have framed : left (Writer.Call.runAll calls) (.ofBytes front) = alone.behind front := by
    rw [← Writer.behind_ofBytes]
    exact (Writer.Call.framed_runAll calls front).left {}
  have placed : left (BufferWrite.runAll calls) (.ofBytes front) = (alone.behind front).inBuffer :=
    ((BufferWrite.realizes_runAll calls).left (.ofBytes front)).trans (congrArg _ framed)
  have buffer : (alone.behind front).inBuffer.buffer = front ++ alone.inBuffer.buffer :=
    Writer.flat_append front alone.containers
  rw [placed]
  refine ⟨buffer, fun context mem => ?_⟩
  obtain ⟨after, zeros⟩ := Writer.zeros_of_mem_contexts mem
  refine ⟨Nat.le_trans ?_ after, zeros⟩
  show front.size ≤ (front ++ alone.base).size
  rw [ByteArray.size_append]
  exact Nat.le_add_right _ _

theorem runAll_eq_ok_iff : BufferWrite.runAll calls (.ofBytes base) = .ok () w ↔
    ∃ u, Writer.Call.runAll calls (.ofBytes base) = .ok () u ∧ u.inBuffer = w :=
  (BufferWrite.realizes_runAll calls).eq_ok_iff (s := .ofBytes base)

/-- A writer that accepts all calls and is done gives out the bytes that it was given before and the layout
of the one document that the calls describe. Behind other bytes it accepts the same calls and gives out the
same layout. After each call, what the buffer held at first is still there. -/
theorem encodes_of_runAll (ok : BufferWrite.runAll calls (.ofBytes base) = .ok () w)
    (done : w.isDone = true) :
    ∃ doc : Document, (∀ v, Writer.Describes calls (.value v) ↔ v = .document doc.fields) ∧
      w.finish = .ok (base ++ doc.layout.toByteArray) ∧
        (∀ other, ∃ w', BufferWrite.runAll calls (.ofBytes other) = .ok () w' ∧ w'.isDone = true ∧
          w'.finish = .ok (other ++ doc.layout.toByteArray)) ∧
          ∀ front, front <+: calls → ∃ written, ∀ other, ∃ w',
            BufferWrite.runAll front (.ofBytes other) = .ok () w' ∧ w'.Extends other written := by
  obtain ⟨u, accepted, rfl⟩ := runAll_eq_ok_iff.mp ok
  obtain ⟨doc, describes, writable, rfl⟩ := Writer.exists_layout_of_runAll accepted done
  have elsewhere (other : ByteArray) : BufferWrite.runAll calls (.ofBytes other) =
      .ok () ⟨other ++ doc.layout.toByteArray, [], .done, none⟩ :=
    runAll_eq_ok_iff.mpr ⟨_, describes.runAll_eq_ok_iff.mpr ⟨writable, rfl⟩, rfl⟩
  refine ⟨doc, fun v => ⟨fun h => h.unique describes, ?_⟩, rfl,
    fun other => ⟨_, elsewhere other, rfl, rfl⟩, ?_⟩
  · rintro rfl
    exact describes
  · rintro front ⟨rest, rfl⟩
    obtain ⟨written, extended⟩ := extends_of_runAll front
    refine ⟨written, fun other => ?_⟩
    have whole := elsewhere other
    rw [BufferWrite.runAll_append] at whole
    obtain ⟨⟨⟩, m, first, -⟩ := bind_eq_ok_iff.mp whole
    have here := extended other
    rw [left, first] at here
    exact ⟨m, first, here⟩

/-- An array and a document in a document, both under the same name. -/
def sampleCalls : List Writer.Call :=
  [.startDocument, .name "a", .startArray, .int32 5, .value .null, .endArray,
    .name "a", .document ⟨[("b", .boolean true)]⟩, .endDocument]

/-- The writer that has accepted `sampleCalls` behind two bytes. -/
def sampleWriter : BufferWriter where
  buffer := ⟨#[1, 2,
    35, 0, 0, 0,
    4, 97, 0, 15, 0, 0, 0, 16, 48, 0, 5, 0, 0, 0, 10, 49, 0, 0,
    3, 97, 0, 9, 0, 0, 0, 8, 98, 0, 1, 0,
    0]⟩
  phase := .done

theorem encodes_of_runAll_sample :
    BufferWrite.runAll sampleCalls (.ofBytes ⟨#[1, 2]⟩) = .ok () sampleWriter ∧
      sampleWriter.isDone = true ∧
        ∃ doc : Document, (∀ v, Writer.Describes sampleCalls (.value v) ↔ v = .document doc.fields) ∧
          sampleWriter.finish = .ok (⟨#[1, 2]⟩ ++ doc.layout.toByteArray) := by
  have ok : BufferWrite.runAll sampleCalls (.ofBytes ⟨#[1, 2]⟩) = .ok () sampleWriter := by
    cbv
  have done : sampleWriter.isDone = true := rfl
  obtain ⟨doc, describes, finish, -⟩ := encodes_of_runAll ok done
  exact ⟨ok, done, doc, describes, finish⟩

end BufferWriter

end DocumentClient
