import DocumentClient.Proofs.Typed.Faults
import DocumentClient.Proofs.Typed.OneValue

/-!
# What is looked up

A registry is asked for codecs directly, and by codecs that leave a part of their value to the codec of its
own shape. Whoever asks, all that comes to the registry is one lookup after another. So what reading or writing
does to a registry is told by the shapes that are looked up on the way.

* `Registry.asks r shapes`, `Registry.after r shapes`: lookups one after another, and what they leave.
* `LooksUp view x s shapes`: the step does to the registry in the state what these lookups do, and it fails for
  want of a codec exactly if one of them does.
* `Codec.readShapes`, `Codec.writeShapes`: the shapes of the parts that a codec leaves to others.

Results:
1. `LooksUp.bind`, `LooksUp.bind_error`, `LooksUp.bind_nil`: sequences look up what their parts do, as far as
   they come.
2. `Codec.looksUp_decode`, `Codec.looksUp_encode`: every codec, by one case for each.
3. `Codec.looksUp_decodeAs`, `Codec.looksUp_encodeAs`, `Codec.looksUp_decodeDocument`,
   `Codec.looksUp_encodeDocument`: values of a shape, and whole documents.
-/

namespace DocumentClient

open Outcome

/-! ## Lookups one after another -/

/-- A lookup that was made, and what it ended with. -/
structure Ask where
  shape : Shape
  answer : Except Fault (Instance shape)

namespace Ask

/-- The shape that was looked up, if there was a codec for it. -/
def answered? (ask : Ask) : Option Shape :=
  match ask.answer with
  | .ok _ => some ask.shape
  | .error _ => none

end Ask

namespace Registry

variable {r r' : Registry} {shape : Shape} {fault : Fault}

/-- The lookup of a shape. -/
def ask (r : Registry) (shape : Shape) : Ask where
  shape := shape
  answer :=
    match lookup shape r with
    | .ok found _ => .ok found
    | .error fault _ => .error fault

/-- The lookups of shapes one after another, of which none keeps the next from being made. -/
def asks (r : Registry) : List Shape → List Ask
  | [] => []
  | shape :: rest => r.ask shape :: (left (lookup shape) r).asks rest

/-- The registry that lookups one after another leave. -/
def after (r : Registry) : List Shape → Registry
  | [] => r
  | shape :: rest => (left (lookup shape) r).after rest

theorem asks_append (r : Registry) (front back : List Shape) :
    r.asks (front ++ back) = r.asks front ++ (r.after front).asks back := by
  induction front generalizing r with
  | nil => rfl
  | cons shape rest ih => exact congrArg (r.ask shape :: ·) (ih _)

theorem after_append (r : Registry) (front back : List Shape) :
    r.after (front ++ back) = (r.after front).after back := by
  induction front generalizing r with
  | nil => rfl
  | cons shape rest ih => exact ih _

theorem ask_of_ok {found : Instance shape} (h : lookup shape r = .ok found r') :
    r.ask shape = ⟨shape, .ok found⟩ := by
  rw [ask, h]

theorem ask_of_error (h : lookup shape r = .error fault r') : r.ask shape = ⟨shape, .error fault⟩ := by
  rw [ask, h]

theorem answer_ask_eq_error_iff : (r.ask shape).answer = .error fault ↔ Fails (lookup shape) r fault := by
  unfold Fails ask
  dsimp only
  cases lookup shape r with
  | ok found r' => simp
  | error e r' => simp

end Registry

/-! ## What a step looks up -/

section Lookups

variable {σ α β : Type} {view : σ → Registry} {x : EStateM Fault σ α} {f : α → EStateM Fault σ β} {s t : σ}
  {a : α} {fault : Fault} {shapes front back : List Shape}

/-- A step does to the registry what looking the shapes up one after another does, and it fails for want of a
codec exactly if one of these lookups does. -/
structure LooksUp (view : σ → Registry) (x : EStateM Fault σ α) (s : σ) (shapes : List Shape) : Prop where
  left : view (left x s) = (view s).after shapes
  fails : ∀ fault : Fault, fault.isLookup = true →
    (Fails x s fault ↔ ∃ ask ∈ (view s).asks shapes, ask.answer = .error fault)

theorem looksUp_lookup (shape : Shape) (r : Registry) : LooksUp id (Registry.lookup shape) r [shape] where
  left := rfl
  fails := by simp [Registry.asks, Registry.answer_ask_eq_error_iff]

/-- A step that leaves the registry alone looks nothing up. -/
theorem looksUp_nil (still : view (Outcome.left x s) = view s) (own : AsksNothing x) : LooksUp view x s [] where
  left := still
  fails fault sort := by
    simp only [Registry.asks, List.not_mem_nil, false_and, exists_false, iff_false]
    rintro ⟨t, failed⟩
    cases sort.symm.trans (own s fault t failed)

theorem LooksUp.bind (first : LooksUp view x s front) (ok : x s = .ok a t) (rest : LooksUp view (f a) t back) :
    LooksUp view (x >>= f) s (front ++ back) := by
  have reached : view t = (view s).after front := left_of_ok ok ▸ first.left
  refine ⟨?_, fun fault sort => ?_⟩
  · rw [left_bind_of_ok ok, rest.left, reached, Registry.after_append]
  · have none : ¬ ∃ ask ∈ (view s).asks front, ask.answer = .error fault := by
      rw [← first.fails fault sort]
      rintro ⟨u, failed⟩
      cases ok.symm.trans failed
    have same : Fails (x >>= f) s fault ↔ Fails (f a) t fault := by
      unfold Fails
      rw [bind_of_ok ok]
    rw [same, rest.fails fault sort, reached, Registry.asks_append]
    simp only [List.mem_append, or_and_right, exists_or, none, false_or]

theorem LooksUp.bind_error (first : LooksUp view x s front) (failed : x s = .error fault t) :
    LooksUp view (x >>= f) s front := by
  refine ⟨?_, fun other sort => ?_⟩
  · rw [left_bind_of_error failed, ← left_of_error failed]
    exact first.left
  · rw [← first.fails other sort]
    have whole : (x >>= f) s = .error fault t := bind_eq_error_iff.mpr (.inl failed)
    simp [Fails, whole, failed]

/-- What comes behind and looks nothing up does not count. -/
theorem LooksUp.bind_nil (first : LooksUp view x s shapes) (rest : ∀ a t, LooksUp view (f a) t []) :
    LooksUp view (x >>= f) s shapes := by
  cases h : x s with
  | ok a t => exact List.append_nil shapes ▸ first.bind h (rest a t)
  | error fault t => exact first.bind_error h

/-- To change the result looks nothing up. -/
theorem LooksUp.map {g : α → β} (first : LooksUp view x s shapes) :
    LooksUp view (x >>= fun a => pure (g a)) s shapes :=
  first.bind_nil fun a _ => looksUp_nil rfl (asksNothing_pure (g a))

end Lookups

namespace Coder

variable {σ α β : Type} {c : Coder σ} {shapes : List Shape}

theorem looksUp_atPlace {act : EStateM Fault σ α} (own : AsksNothing act) (c : Coder σ) :
    LooksUp Coder.registry (atPlace act) c [] := by
  refine looksUp_nil ?_ fun c fault c' failed => ?_
  · unfold Outcome.left atPlace
    cases act c.place <;> rfl
  · unfold atPlace at failed
    cases h : act c.place with
    | ok a place =>
      rw [h] at failed
      cases failed
    | error e place =>
      rw [h] at failed
      cases failed
      exact own c.place fault place h

/-- Behind a step on the place comes what may look something up. -/
theorem looksUp_atPlace_bind {act : EStateM Fault σ α} {f : α → EStateM Fault (Coder σ) β} {a : α} {place : σ}
    (own : AsksNothing act) (ok : act c.place = .ok a place)
    (rest : LooksUp Coder.registry (f a) ⟨place, c.registry⟩ shapes) :
    LooksUp Coder.registry (atPlace act >>= f) c shapes := by
  have moved : atPlace act c = .ok a ⟨place, c.registry⟩ := atPlace_eq_ok_iff.mpr ⟨ok, rfl⟩
  exact (looksUp_atPlace own c).bind moved rest

theorem looksUp_codec (shape : Shape) (c : Coder σ) : LooksUp Coder.registry (codec shape) c [shape] := by
  have asked :
      LooksUp Coder.registry (atRegistry (Registry.lookup shape) : EStateM Fault (Coder σ) _) c [shape] := by
    obtain ⟨left, fails⟩ := looksUp_lookup shape c.registry
    refine ⟨?_, fun fault sort => ?_⟩
    · rw [id, id] at left
      rw [← left]
      unfold Outcome.left atRegistry
      cases Registry.lookup shape c.registry <;> rfl
    · refine Iff.trans ?_ (fails fault sort)
      unfold Fails atRegistry
      cases Registry.lookup shape c.registry with
      | ok found r => simp
      | error e r => simp
  exact asked.map

/-- Without an answer of the registry there is no codec. -/
theorem codec_of_error {shape : Shape} {fault : Fault} {r : Registry}
    (h : Registry.lookup shape c.registry = .error fault r) :
    codec shape c = .error fault { c with registry := r } := by
  have asked : atRegistry (Registry.lookup shape) c = .error fault { c with registry := r } := by
    rw [atRegistry, h]
  exact bind_eq_error_iff.mpr (.inl asked)

/-- Acts at a place of which nothing is kept. -/
def visit (place : σ) (act : EStateM Fault (Coder σ) α) : EStateM Fault Registry α := fun r =>
  match act ⟨place, r⟩ with
  | .ok a c => .ok a c.registry
  | .error fault c => .error fault c.registry

theorem looksUp_visit {place : σ} {act : EStateM Fault (Coder σ) α} {r : Registry}
    (h : LooksUp Coder.registry act ⟨place, r⟩ shapes) : LooksUp id (visit place act) r shapes := by
  obtain ⟨left, fails⟩ := h
  refine ⟨?_, fun fault sort => ?_⟩
  · refine Eq.trans ?_ left
    unfold Outcome.left visit
    cases act ⟨place, r⟩ <;> rfl
  · refine Iff.trans ?_ (fails fault sort)
    unfold Fails visit
    cases act ⟨place, r⟩ with
    | ok a c => simp
    | error e c => simp

end Coder

/-! ## What a codec looks up -/

/-- The shape of the reference systems of a kind. -/
def CrsKind.shape : CrsKind → Shape
  | linked => .linkedCrs
  | named => .namedCrs

namespace Codec

open Coder

/-- The shapes that are looked up when a value is read: the one of a reference system of the kind that comes. -/
def readShapes : {shape : Shape} → Codec shape → Reader → List Shape
  | _, .crs, s =>
    match Read.crsKind s with
    | .ok kind _ => [kind.shape]
    | .error _ _ => []
  | _, .nullable codec, s =>
    match s.currentKind with
    | .ok kind => if kind = .null then [] else codec.readShapes s
    | .error _ => []
  | _, _, _ => []

/-- The shapes that are looked up when a value is written. -/
def writeShapes : {shape : Shape} → Codec shape → shape.Carrier → List Shape
  | _, .crs, .linked _ => [.linkedCrs]
  | _, .crs, .named _ => [.namedCrs]
  | _, .nullable codec, some a => codec.writeShapes a
  | _, _, _ => []

theorem looksUp_decodeCrs (c : Coder Reader) :
    LooksUp Coder.registry decodeCrs c (Codec.crs.readShapes c.place) := by
  rw [readShapes]
  unfold decodeCrs
  cases told : Read.crsKind c.place with
  | error fault s =>
    have failed : atPlace Read.crsKind c = .error fault { c with place := s } := by
      rw [atPlace, told]
    exact (looksUp_atPlace Read.asksNothing_crsKind c).bind_error failed
  | ok kind s =>
    refine looksUp_atPlace_bind Read.asksNothing_crsKind told ?_
    cases kind with
    | linked =>
      refine (looksUp_codec _ _).bind_nil fun found c' => (looksUp_atPlace ?_ c').map
      exact decodeLinked_eq found ▸ Read.asksNothing_linkedCrs
    | named =>
      refine (looksUp_codec _ _).bind_nil fun found c' => (looksUp_atPlace ?_ c').map
      exact decodeNamed_eq found ▸ Read.asksNothing_namedCrs

theorem looksUp_encodeCrs (system : Crs) (c : Coder Writer) :
    LooksUp Coder.registry (encodeCrs system) c (Codec.crs.writeShapes system) := by
  cases system with
  | linked system =>
    refine (looksUp_codec _ _).bind_nil fun found c' => looksUp_atPlace ?_ c'
    cases found
    exact Write.asksNothing_of_eq (Write.linkedCrs_eq system)
  | named system =>
    refine (looksUp_codec _ _).bind_nil fun found c' => looksUp_atPlace ?_ c'
    cases found
    exact Write.asksNothing_of_eq (Write.namedCrs_eq system)

theorem looksUp_nullable {shape : Shape} {codec : Codec shape}
    (h : ∀ c, LooksUp Coder.registry codec.decode c (codec.readShapes c.place)) (c : Coder Reader) :
    LooksUp Coder.registry codec.nullable.decode c (codec.nullable.readShapes c.place) := by
  rw [readShapes, decode]
  cases told : c.place.currentKind with
  | error fault =>
    have failed : atPlace Read.currentKind c = .error fault c := by
      rw [atPlace, Read.currentKind, Read.peek, told]
    exact (looksUp_atPlace Read.asksNothing_currentKind c).bind_error failed
  | ok kind =>
    have ahead : Read.currentKind c.place = .ok kind c.place := by
      rw [Read.currentKind, Read.peek, told]
    refine looksUp_atPlace_bind Read.asksNothing_currentKind ahead ?_
    dsimp only
    split
    · exact (looksUp_atPlace (Read.asksNothing_unit _) c).map
    · exact (h c).map

/-- Only reference systems are read with the help of the registry; one case for each codec. -/
theorem looksUp_decode : {shape : Shape} → (codec : Codec shape) → (c : Coder Reader) →
    LooksUp Coder.registry codec.decode c (codec.readShapes c.place)
  | _, .uint8 _, c => looksUp_atPlace Read.asksNothing_uint8 c
  | _, .uint32 _ policy, c => looksUp_atPlace (Read.asksNothing_uint32 policy) c
  | _, .int32, c => looksUp_atPlace (Read.asksNothing_fixed _ _ _) c
  | _, .int32Record, c => looksUp_atPlace Read.asksNothing_readNoRecord c
  | _, .int64, c => looksUp_atPlace (Read.asksNothing_fixed _ _ _) c
  | _, .double, c => looksUp_atPlace (Read.asksNothing_fixed _ _ _) c
  | _, .boolean, c => looksUp_atPlace Read.asksNothing_boolean c
  | _, .text, c => looksUp_atPlace (Read.asksNothing_textOf _) c
  | _, .document, c => looksUp_atPlace Read.asksNothing_document c
  | _, .value, c => looksUp_atPlace Read.asksNothing_value c
  | _, .projected, c => looksUp_atPlace (Read.asksNothing_pair _).map c
  | _, .geographic, c => looksUp_atPlace (Read.asksNothing_pair _).map c
  | _, .coordinates, _ => looksUp_nil rfl (asksNothing_throw rfl)
  | _, .linkedCrs, c => looksUp_atPlace Read.asksNothing_linkedCrs c
  | _, .namedCrs, c => looksUp_atPlace Read.asksNothing_namedCrs c
  | _, .crs, c => looksUp_decodeCrs c
  | _, .record schema, c => looksUp_atPlace (Read.asksNothing_readRecord schema) c
  | _, .nullable codec, c => looksUp_nullable (looksUp_decode codec) c

/-- Only reference systems are written with the help of the registry; one case for each codec. -/
theorem looksUp_encode : {shape : Shape} → (codec : Codec shape) → (a : shape.Carrier) → (c : Coder Writer) →
    LooksUp Coder.registry (codec.encode a) c (codec.writeShapes a)
  | _, .uint8 form, b, c => looksUp_atPlace (Write.asksNothing_of_eq (Write.uint8_eq form b)) c
  | _, .uint32 form policy, n, c => looksUp_atPlace (Write.asksNothing_uint32 form policy n) c
  | _, .int32, _, c => looksUp_atPlace (Write.asksNothing_fixed _ _) c
  | _, .int32Record, _, _ => looksUp_nil rfl (asksNothing_throw rfl)
  | _, .int64, _, c => looksUp_atPlace (Write.asksNothing_fixed _ _) c
  | _, .double, _, c => looksUp_atPlace (Write.asksNothing_fixed _ _) c
  | _, .boolean, _, c => looksUp_atPlace (Write.asksNothing_fixed _ _) c
  | _, .text, _, c => looksUp_atPlace (Write.asksNothing_textOf _ _) c
  | _, .document, doc, c => looksUp_atPlace (Write.asksNothing_documentOf (Write.asksNothing_fields doc.fields)) c
  | _, .value, v, c => looksUp_atPlace (Write.asksNothing_value v) c
  | _, .projected, _, c => looksUp_atPlace (Write.asksNothing_of_eq (Write.pair_eq _ _)) c
  | _, .geographic, _, c => looksUp_atPlace (Write.asksNothing_of_eq (Write.pair_eq _ _)) c
  | _, .coordinates, _, _ => looksUp_nil rfl (asksNothing_throw rfl)
  | _, .linkedCrs, system, c => looksUp_atPlace (Write.asksNothing_of_eq (Write.linkedCrs_eq system)) c
  | _, .namedCrs, system, c => looksUp_atPlace (Write.asksNothing_of_eq (Write.namedCrs_eq system)) c
  | _, .crs, system, c => looksUp_encodeCrs system c
  | _, .record schema, row, c =>
    looksUp_atPlace (Write.asksNothing_documentOf (Write.asksNothing_fields (schema.toDocument row).fields)) c
  | _, .nullable codec, some a, c => looksUp_encode codec a c
  | _, .nullable _, none, c => looksUp_atPlace (Write.asksNothing_fixed _ _) c

/-! ### Values of a shape and whole documents -/

variable {shape : Shape}

theorem looksUp_decodeAs (shape : Shape) (c : Coder Reader) :
    LooksUp Coder.registry (decodeAs shape) c (shape ::
      match Registry.lookup shape c.registry with
      | .ok made _ => made.codec.readShapes c.place
      | .error _ _ => []) := by
  cases looked : Registry.lookup shape c.registry with
  | ok made r =>
    have asked : Coder.codec shape c = .ok made.codec { c with registry := r } :=
      codec_eq_ok_iff.mpr ⟨rfl, made, rfl, looked⟩
    exact (looksUp_codec shape c).bind asked (looksUp_decode made.codec _)
  | error fault r => exact (looksUp_codec shape c).bind_error (codec_of_error looked)

theorem looksUp_encodeAs (shape : Shape) (a : shape.Carrier) (c : Coder Writer) :
    LooksUp Coder.registry (encodeAs shape a) c (shape ::
      match Registry.lookup shape c.registry with
      | .ok made _ => made.codec.writeShapes a
      | .error _ _ => []) := by
  cases looked : Registry.lookup shape c.registry with
  | ok made r =>
    have asked : Coder.codec shape c = .ok made.codec { c with registry := r } :=
      codec_eq_ok_iff.mpr ⟨rfl, made, rfl, looked⟩
    exact (looksUp_codec shape c).bind asked (looksUp_encode made.codec a _)
  | error fault r => exact (looksUp_codec shape c).bind_error (codec_of_error looked)

/-- Behind the value the reader has to be at the end. -/
theorem decodeDocument_eq_visit (codec : Codec shape) (data : ByteArray) :
    codec.decodeDocument data = visit (.ofBytes data) (codec.decode >>= fun a => atPlace (Read.peek fun s =>
      if s.isDone ∧ s.pos = data.size then .ok a else .error (.malformed (.notConsumed s.pos data.size)))) := by
  funext r
  cases read : codec.decode ⟨.ofBytes data, r⟩ with
  | error fault c =>
    rw [decodeDocument, read, visit, bind_eq_error_iff.mpr (.inl read)]
  | ok a c =>
    rw [decodeDocument, read, visit, bind_of_ok read, atPlace, Read.peek]
    dsimp only
    split <;> rfl

/-- Behind the value the writer has to be at the end. -/
theorem encodeDocument_eq_visit (codec : Codec shape) (a : shape.Carrier) :
    codec.encodeDocument a = visit {} (codec.encode a >>= fun _ => atPlace fun w =>
      match w.finish with
      | .ok bytes => .ok bytes w
      | .error fault => .error fault w) := by
  funext r
  cases written : codec.encode a ⟨{}, r⟩ with
  | error fault c =>
    rw [encodeDocument, written, visit, bind_eq_error_iff.mpr (.inl written)]
  | ok u c =>
    rw [encodeDocument, written, visit, bind_of_ok written]
    cases finished : c.place.finish with
    | ok bytes => simp only [atPlace, finished]
    | error fault => simp only [atPlace, finished]

theorem looksUp_decodeDocument (codec : Codec shape) (data : ByteArray) (r : Registry) :
    LooksUp id (codec.decodeDocument data) r (codec.readShapes (.ofBytes data)) := by
  rw [decodeDocument_eq_visit]
  refine looksUp_visit ((looksUp_decode codec _).bind_nil fun a c => looksUp_atPlace ?_ c)
  refine Read.asksNothing_peek fun s fault failed => ?_
  split at failed
  · cases failed
  · cases failed
    rfl

theorem looksUp_encodeDocument (codec : Codec shape) (a : shape.Carrier) (r : Registry) :
    LooksUp id (codec.encodeDocument a) r (codec.writeShapes a) := by
  rw [encodeDocument_eq_visit]
  refine looksUp_visit ((looksUp_encode codec a _).bind_nil fun _ c => looksUp_atPlace ?_ c)
  intro w fault w' failed
  cases finished : w.finish with
  | ok bytes => simp [finished] at failed
  | error e =>
    simp only [finished] at failed
    cases failed
    exact Write.isLookup_of_finish finished

end Codec

end DocumentClient
