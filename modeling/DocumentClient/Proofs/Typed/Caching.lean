import DocumentClient.Proofs.Typed.Lookups

/-!
# One instance for each shape

A registry builds a codec when its shape is looked up for the first time, keeps the instance without its type
and hands it out again at every later lookup. Of what was registered for a shape the last codec counts.

* `Registration`, `Codec.IsLastOf`: the ways to register codecs, and which codec is the last one for its shape.
* `Registry.Use`: all that can be done with a registry; `Use.history` tells the lookups, direct or for parts of
  values.
* `Registry.Sound start asks r`: the invariant, which ties the kept instances to the registered codecs and to
  the lookups that have been made.

Results:
1. `Registrations.find?_ofCalls_eq_some_iff`: what is found is what was registered last.
2. `Registry.Sound.lookup_cases`: the three ways in which a lookup ends.
3. `Registry.Sound.ask`, `Registry.Sound.play`: one lookup keeps the invariant, and so does a whole run.
4. `Registry.keeps_of_play`: what a registry keeps to, whatever was registered and whatever is done with it.
-/

namespace DocumentClient

open Outcome

/-! ## Registrations -/

/-- A way to register codecs. -/
inductive Registration where
  /-- One codec, be it a custom one or that of a record. -/
  | one {shape : Shape} (codec : Codec shape)
  /-- A codec and one for missing values. -/
  | nullable {shape : Shape} (codec : Codec shape)
  /-- The codecs that every shape has by itself. -/
  | defaults

namespace Registration

/-- A codec and the one for missing values that goes with it. -/
def withMissing {shape : Shape} (codec : Codec shape) : List (Sigma Codec) :=
  [⟨shape, codec⟩, ⟨.nullable shape, codec.nullable⟩]

/-- The codecs that are registered, one after another. -/
def codecs : Registration → List (Sigma Codec)
  | .one codec => [⟨_, codec⟩]
  | .nullable codec => withMissing codec
  | .defaults =>
    [⟨_, Codec.defaultUInt8⟩, ⟨_, Codec.defaultUInt32⟩] ++ withMissing .int32 ++ withMissing .int64 ++
      withMissing .double ++ withMissing .boolean ++ withMissing .text ++ withMissing .document ++
      [⟨_, .value⟩] ++ withMissing .projected ++ withMissing .geographic ++ [⟨_, .coordinates⟩] ++
      withMissing .crs ++ [⟨_, .linkedCrs⟩, ⟨_, .namedCrs⟩]

/-- Registers behind what is registered already. -/
def addTo (call : Registration) (r : Registrations) : Registrations :=
  match call with
  | .one codec => r.register codec
  | .nullable codec => r.registerNullable codec
  | .defaults => r.registerDefaults

end Registration

/-- The codec is the last one for its shape. -/
def Codec.IsLastOf {shape : Shape} (codec : Codec shape) (codecs : List (Sigma Codec)) : Prop :=
  ∃ before after, codecs = before ++ ⟨shape, codec⟩ :: after ∧ ∀ later ∈ after, later.1 ≠ shape

namespace Registrations

variable {calls : List Registration} {shape : Shape}

/-- What is registered after some calls. -/
def ofCalls (calls : List Registration) : Registrations :=
  calls.foldl (fun r call => call.addTo r) {}

/-- An entry stands under the shape that the codec is for. -/
def keyed (entry : Sigma Codec) : Shape × Sigma Codec := (entry.1, entry)

theorem codecs_addTo (call : Registration) (r : Registrations) :
    (call.addTo r).codecs = (call.codecs.map keyed).reverse ++ r.codecs := by
  cases call <;> rfl

theorem codecs_foldl (calls : List Registration) (r : Registrations) :
    (calls.foldl (fun r call => call.addTo r) r).codecs =
      ((calls.flatMap Registration.codecs).map keyed).reverse ++ r.codecs := by
  induction calls generalizing r with
  | nil => rfl
  | cons call rest ih => simp [ih, codecs_addTo]

theorem codecs_ofCalls (calls : List Registration) :
    (ofCalls calls).codecs = ((calls.flatMap Registration.codecs).map keyed).reverse := by
  simpa [ofCalls] using codecs_foldl calls {}

/-- The codec that is found for a shape is the one that was registered last for it. -/
theorem find?_ofCalls_eq_some_iff {entry : Sigma Codec} :
    (ofCalls calls).find? shape = some entry ↔
      ∃ codec : Codec shape, entry = ⟨shape, codec⟩ ∧ codec.IsLastOf (calls.flatMap Registration.codecs) := by
  rw [find?, codecs_ofCalls, List.lookup_eq_some_iff]
  constructor
  · rintro ⟨newer, older, split, fresh⟩
    have order := congrArg List.reverse split
    rw [List.reverse_reverse, List.reverse_append, List.reverse_cons, List.append_assoc,
      List.singleton_append] at order
    obtain ⟨before, rest, same, -, found⟩ := List.map_eq_append_iff.mp order
    obtain ⟨last, after, rfl, here, later⟩ := List.map_eq_cons_iff.mp found
    obtain ⟨own, codec⟩ := last
    cases here
    refine ⟨codec, rfl, before, after, same, fun other mem => ?_⟩
    have listed : keyed other ∈ newer := by
      rw [← List.mem_reverse, ← later]
      exact List.mem_map_of_mem mem
    exact (bne_iff_ne.mp (fresh _ listed)).symm
  · rintro ⟨codec, rfl, before, after, same, fresh⟩
    refine ⟨(after.map keyed).reverse, (before.map keyed).reverse, by simp [same, keyed], ?_⟩
    intro other listed
    obtain ⟨later, mem, rfl⟩ := List.mem_map.mp (List.mem_reverse.mp listed)
    exact bne_iff_ne.mpr (fresh later mem).symm

/-- Nothing is found for a shape that nothing was registered for. -/
theorem find?_ofCalls_eq_none_iff :
    (ofCalls calls).find? shape = none ↔ ∀ entry ∈ calls.flatMap Registration.codecs, entry.1 ≠ shape := by
  rw [find?, codecs_ofCalls, List.lookup_eq_none_iff]
  simp only [List.mem_reverse, List.forall_mem_map, keyed, bne_iff_ne, ne_comm]

/-- Every codec is found under the shape that it is for. -/
def Sorted (r : Registrations) : Prop :=
  ∀ shape entry, r.find? shape = some entry → entry.1 = shape

theorem sorted_ofCalls (calls : List Registration) : (ofCalls calls).Sorted := by
  intro shape entry found
  obtain ⟨codec, rfl, -⟩ := find?_ofCalls_eq_some_iff.mp found
  rfl

end Registrations

/-- The answer is the codec that was registered last for the shape; only if there is none, the lookup is
refused. -/
def Ask.Fits (ask : Ask) (codecs : List (Sigma Codec)) : Prop :=
  match ask.answer with
  | .ok found => found.codec.IsLastOf codecs
  | .error fault =>
    (∀ entry ∈ codecs, entry.1 ≠ ask.shape) ∧ fault = .misuse (.unregistered ask.shape.typeName)

/-! ## What is done with a registry -/

namespace Registry

/-- What is done with a registry: looking codecs up, and reading and writing with any codec or with one that
is looked up first, wherever the reader or the writer stands. -/
inductive Use where
  | lookup (shape : Shape)
  | decode {shape : Shape} (codec : Codec shape) (s : Reader)
  | encode {shape : Shape} (codec : Codec shape) (a : shape.Carrier) (w : Writer)
  | decodeAs (shape : Shape) (s : Reader)
  | encodeAs (shape : Shape) (a : shape.Carrier) (w : Writer)
  | decodeDocument {shape : Shape} (codec : Codec shape) (data : ByteArray)
  | encodeDocument {shape : Shape} (codec : Codec shape) (a : shape.Carrier)

namespace Use

/-- What the registry goes through; values, readers and writers are not kept. -/
def act : Use → EStateM Fault Registry Unit
  | lookup shape => discard (Registry.lookup shape)
  | decode codec s => discard (Coder.visit s codec.decode)
  | encode codec a w => Coder.visit w (codec.encode a)
  | decodeAs shape s => discard (Coder.visit s (Codec.decodeAs shape))
  | encodeAs shape a w => Coder.visit w (Codec.encodeAs shape a)
  | decodeDocument codec data => discard (codec.decodeDocument data)
  | encodeDocument codec a => discard (codec.encodeDocument a)

/-- The shapes that are looked up one after another, directly or for the parts of a value. -/
def shapes (r : Registry) : Use → List Shape
  | lookup shape => [shape]
  | decode codec s => codec.readShapes s
  | encode codec a _ => codec.writeShapes a
  | decodeAs shape s => shape ::
    match Registry.lookup shape r with
    | .ok made _ => made.codec.readShapes s
    | .error _ _ => []
  | encodeAs shape a _ => shape ::
    match Registry.lookup shape r with
    | .ok made _ => made.codec.writeShapes a
    | .error _ _ => []
  | decodeDocument codec data => codec.readShapes (.ofBytes data)
  | encodeDocument codec a => codec.writeShapes a

/-- The registry after one use after another, whether they succeed or fail. -/
def play : List Use → Registry → Registry
  | [], r => r
  | use :: rest, r => play rest (left use.act r)

/-- The lookups that are made on the way. -/
def history : List Use → Registry → List Ask
  | [], _ => []
  | use :: rest, r => r.asks (use.shapes r) ++ history rest (left use.act r)

theorem looksUp_act (use : Use) (r : Registry) : LooksUp id use.act r (use.shapes r) := by
  cases use with
  | lookup shape => exact (looksUp_lookup shape r).map
  | decode codec s => exact (Coder.looksUp_visit (Codec.looksUp_decode codec _)).map
  | encode codec a w => exact Coder.looksUp_visit (Codec.looksUp_encode codec a _)
  | decodeAs shape s => exact (Coder.looksUp_visit (Codec.looksUp_decodeAs shape ⟨s, r⟩)).map
  | encodeAs shape a w => exact Coder.looksUp_visit (Codec.looksUp_encodeAs shape a ⟨w, r⟩)
  | decodeDocument codec data => exact (Codec.looksUp_decodeDocument codec data r).map
  | encodeDocument codec a => exact (Codec.looksUp_encodeDocument codec a r).map

end Use

/-! ## What holds all the time -/

theorem notMem_of_built? {r : Registry} {shape : Shape} (absent : r.built? shape = none) :
    shape ∉ r.built.map Prod.fst := by
  intro mem
  obtain ⟨entry, listed, rfl⟩ := List.mem_map.mp mem
  have differ := List.lookup_eq_none_iff.mp absent entry listed
  simp at differ

theorem mem_of_built? {r : Registry} {shape : Shape} {made : Sigma Instance}
    (kept : r.built? shape = some made) : shape ∈ r.built.map Prod.fst := by
  obtain ⟨before, behind, split, -⟩ := List.lookup_eq_some_iff.mp kept
  simp [split]

/-- The lookup has been answered with what is kept for the shape, or refused since nothing is registered. -/
def Settled (r : Registry) (ask : Ask) : Prop :=
  match ask.answer with
  | .ok found => r.built? ask.shape = some ⟨ask.shape, found⟩
  | .error fault =>
    r.registrations.find? ask.shape = none ∧ fault = .misuse (.unregistered ask.shape.typeName)

/-- What holds of a registry after some lookups. Each instance is kept under the shape that it is for and has
the codec that is registered, no shape has two, and nothing that was built is lost. All lookups are settled, and
they are the only cause of what is kept. -/
structure Sound (start : Registrations) (asks : List Ask) (r : Registry) : Prop where
  registrations : r.registrations = start
  typed : ∀ shape made, r.built? shape = some made →
    ∃ found : Instance shape, made = ⟨shape, found⟩ ∧ start.find? shape = some ⟨shape, found.codec⟩
  unique : (r.built.map Prod.fst).Nodup
  builds : r.builds = r.built.length
  settled : ∀ ask ∈ asks, r.Settled ask
  asked : ∀ shape ∈ r.built.map Prod.fst, shape ∈ asks.filterMap Ask.answered?

namespace Sound

variable {start : Registrations} {before : List Ask} {r : Registry} {shape : Shape}

/-- A registry of which nothing has been looked up. -/
theorem ofRegistrations (start : Registrations) : Sound start [] (.ofRegistrations start) where
  registrations := rfl
  typed := nofun
  unique := .nil
  builds := rfl
  settled := nofun
  asked := nofun

/-- How a lookup ends: with what is kept, with a new instance of what is registered, or with a refusal. -/
theorem lookup_cases (h : Sound start before r) (sorted : start.Sorted) (shape : Shape) :
    (∃ found : Instance shape, r.built? shape = some ⟨shape, found⟩ ∧ lookup shape r = .ok found r) ∨
    (∃ made : Instance shape, r.built? shape = none ∧ start.find? shape = some ⟨shape, made.codec⟩ ∧
      lookup shape r = .ok made (r.keep shape ⟨shape, made⟩)) ∨
    (start.find? shape = none ∧ lookup shape r = .error (.misuse (.unregistered shape.typeName)) r) := by
  cases kept : r.built? shape with
  | some made =>
    obtain ⟨found, rfl, -⟩ := h.typed shape made kept
    exact .inl ⟨found, rfl, lookup_eq_ok_iff.mpr (.inl ⟨kept, rfl⟩)⟩
  | none =>
    refine .inr ?_
    cases registered : start.find? shape with
    | some entry =>
      obtain ⟨own, codec⟩ := entry
      obtain rfl : own = shape := sorted _ _ registered
      refine .inl ⟨⟨codec, r.builds⟩, rfl, rfl, lookup_eq_ok_iff.mpr (.inr ⟨kept, ?_, rfl, rfl⟩)⟩
      rw [h.registrations, registered]
    | none =>
      refine .inr ⟨rfl, ?_⟩
      rw [lookup, kept, h.registrations, registered]

/-! ### One lookup -/

/-- A lookup that is settled by what is kept already. -/
theorem record (h : Sound start before r) {ask : Ask} (settled : r.Settled ask) :
    Sound start (before ++ [ask]) r where
  registrations := h.registrations
  typed := h.typed
  unique := h.unique
  builds := h.builds
  settled := List.forall_mem_append.mpr ⟨h.settled, List.forall_mem_singleton.mpr settled⟩
  asked other mem := by
    rw [List.filterMap_append]
    exact List.mem_append_left _ (h.asked other mem)

/-- A new instance settles nothing anew that has been settled before. -/
theorem settled_keep (h : Sound start before r) {made : Sigma Instance} (absent : r.built? shape = none)
    {ask : Ask} (mem : ask ∈ before) : (r.keep shape made).Settled ask := by
  have settled := h.settled ask mem
  obtain ⟨own, answer⟩ := ask
  cases answer with
  | ok found =>
    have kept : r.built? own = some ⟨own, found⟩ := settled
    have differ : own ≠ shape := by
      rintro rfl
      cases absent.symm.trans kept
    exact (built?_keep_of_ne made differ).trans kept
  | error fault => exact settled

/-- A lookup that is answered with a new instance. -/
theorem made (h : Sound start before r) {made : Instance shape} (absent : r.built? shape = none)
    (registered : start.find? shape = some ⟨shape, made.codec⟩) :
    Sound start (before ++ [⟨shape, .ok made⟩]) (r.keep shape ⟨shape, made⟩) where
  registrations := h.registrations
  typed other found kept := by
    by_cases same : other = shape
    · subst same
      rw [built?_keep_self] at kept
      exact ⟨made, (Option.some.inj kept).symm, registered⟩
    · rw [built?_keep_of_ne _ same] at kept
      exact h.typed other found kept
  unique := List.nodup_cons.mpr ⟨notMem_of_built? absent, h.unique⟩
  builds := congrArg (· + 1) h.builds
  settled := List.forall_mem_append.mpr
    ⟨fun _ mem => h.settled_keep absent mem, List.forall_mem_singleton.mpr (built?_keep_self _)⟩
  asked other mem := by
    rw [List.filterMap_append, List.mem_append]
    rcases List.mem_cons.mp mem with rfl | mem
    · exact .inr (List.mem_singleton_self _)
    · exact .inl (h.asked other mem)

/-- A lookup keeps the registry sound. -/
theorem ask (h : Sound start before r) (sorted : start.Sorted) (shape : Shape) :
    Sound start (before ++ [r.ask shape]) (left (lookup shape) r) := by
  rcases h.lookup_cases sorted shape with ⟨found, kept, ends⟩ | ⟨made, absent, registered, ends⟩ | ⟨absent, ends⟩
  · rw [ask_of_ok ends, left_of_ok ends]
    exact h.record kept
  · rw [ask_of_ok ends, left_of_ok ends]
    exact h.made absent registered
  · rw [ask_of_error ends, left_of_error ends]
    exact h.record ⟨h.registrations ▸ absent, rfl⟩

/-! ### One lookup after another -/

/-- Lookups one after another keep the registry sound. -/
theorem after (h : Sound start before r) (sorted : start.Sorted) (shapes : List Shape) :
    Sound start (before ++ r.asks shapes) (r.after shapes) := by
  induction shapes generalizing r before with
  | nil => exact (List.append_nil before).symm ▸ h
  | cons shape rest ih =>
    have whole := ih (h.ask sorted shape)
    rwa [List.append_assoc, List.singleton_append] at whole

/-- Whatever is done with the registry, it stays sound. -/
theorem play (h : Sound start before r) (sorted : start.Sorted) (uses : List Use) :
    Sound start (before ++ Use.history uses r) (Use.play uses r) := by
  induction uses generalizing r before with
  | nil => exact (List.append_nil before).symm ▸ h
  | cons use rest ih =>
    have left : left use.act r = r.after (use.shapes r) := (use.looksUp_act r).left
    have whole := ih (h.after sorted (use.shapes r))
    rwa [List.append_assoc, ← left] at whole

/-! ### What follows -/

/-- There are as many instances as shapes that have been answered for. -/
theorem builds_eq_card (h : Sound start before r) :
    r.builds = (before.filterMap Ask.answered?).toFinset.card := by
  have same : (before.filterMap Ask.answered?).toFinset = (r.built.map Prod.fst).toFinset := by
    ext shape
    rw [List.mem_toFinset, List.mem_toFinset]
    refine ⟨fun mem => ?_, h.asked shape⟩
    obtain ⟨⟨own, answer⟩, listed, answered⟩ := List.mem_filterMap.mp mem
    cases answer with
    | ok found =>
      cases answered
      exact mem_of_built? (h.settled _ listed)
    | error fault => cases answered
  rw [same, List.toFinset_card_of_nodup h.unique, List.length_map, h.builds]

/-- What is kept is not registered for nothing. -/
theorem find?_of_built? (h : Sound start before r) {found : Instance shape}
    (kept : r.built? shape = some ⟨shape, found⟩) : r.registrations.find? shape = some ⟨shape, found.codec⟩ := by
  obtain ⟨_, same, registered⟩ := h.typed _ _ kept
  cases same
  rw [h.registrations, registered]

/-- Lookups of one shape are answered alike. -/
theorem ask_eq (h : Sound start before r) {ask other : Ask} (mem : ask ∈ before) (mem' : other ∈ before)
    (same : ask.shape = other.shape) : ask = other := by
  have settled := h.settled ask mem
  have settled' := h.settled other mem'
  obtain ⟨shape, answer⟩ := ask
  obtain ⟨_, answer'⟩ := other
  obtain rfl : shape = _ := same
  cases answer with
  | ok found =>
    cases answer' with
    | ok found' =>
      cases settled.symm.trans settled'
      rfl
    | error fault => cases (h.find?_of_built? settled).symm.trans settled'.1
  | error fault =>
    cases answer' with
    | ok found => cases (h.find?_of_built? settled').symm.trans settled.1
    | error fault' => rw [settled.2, settled'.2]

/-- A registry answers for the shapes that something is registered for. -/
theorem knows_iff (h : Sound start before r) (sorted : start.Sorted) :
    r.Knows shape ↔ (start.find? shape).isSome = true := by
  rcases h.lookup_cases sorted shape with ⟨found, kept, ends⟩ | ⟨made, -, registered, ends⟩ | ⟨absent, ends⟩
  · have registered := h.find?_of_built? kept
    rw [h.registrations] at registered
    simp [Knows, ends, registered]
  · simp [Knows, ends, registered]
  · simp [Knows, ends, absent]

/-- A refused lookup changes nothing. -/
theorem eq_of_lookup_eq_error (h : Sound start before r) (sorted : start.Sorted) {fault : Fault} {r' : Registry}
    (refused : lookup shape r = .error fault r') : r' = r := by
  rcases h.lookup_cases sorted shape with ⟨found, -, ends⟩ | ⟨made, -, -, ends⟩ | ⟨-, ends⟩
  · cases ends.symm.trans refused
  · cases ends.symm.trans refused
  · cases ends.symm.trans refused
    rfl

/-- Whatever is done, no instance turns out to be one for another shape than it is kept for. -/
theorem not_wrongInstance (h : Sound start before r) (sorted : start.Sorted) (use : Use) (type : String) :
    ¬ Fails use.act r (.misuse (.wrongInstance type)) := by
  rw [(use.looksUp_act r).fails _ rfl]
  rintro ⟨⟨own, answer⟩, mem, told⟩
  have settled := (h.after sorted (use.shapes r)).settled _ (List.mem_append_right before mem)
  dsimp only at told
  subst told
  cases settled.2

end Sound

/-! ## The whole run -/

/-- What is true of a registry with codecs that were registered one after another, and of the lookups that have
been made in it. -/
structure Keeps (codecs : List (Sigma Codec)) (asks : List Ask) (r : Registry) : Prop where
  /-- Lookups are answered with the last codec for the shape, and refused only where there is none. -/
  fits : ∀ ask ∈ asks, ask.Fits codecs
  /-- Lookups of one shape are answered alike, all of them with the same instance. -/
  same : ∀ ask ∈ asks, ∀ other ∈ asks, ask.shape = other.shape → ask = other
  cached : r.cachedCount = r.builds
  builds : r.builds = (asks.filterMap Ask.answered?).toFinset.card
  knows : ∀ shape, r.Knows shape ↔ ∃ codec : Codec shape, ⟨shape, codec⟩ ∈ codecs
  isRegistered : ∀ shape, r.isRegistered shape = true ↔ r.Knows shape
  /-- A lookup that is refused changes nothing. -/
  refused : ∀ shape fault r', lookup shape r = .error fault r' → r' = r

theorem Sound.keeps {calls : List Registration} {asks : List Ask} {r : Registry}
    (h : Sound (.ofCalls calls) asks r) : r.Keeps (calls.flatMap Registration.codecs) asks where
  fits ask mem := by
    have settled := h.settled ask mem
    obtain ⟨shape, answer⟩ := ask
    cases answer with
    | ok found =>
      have registered := h.find?_of_built? settled
      rw [h.registrations] at registered
      obtain ⟨codec, same, last⟩ := Registrations.find?_ofCalls_eq_some_iff.mp registered
      cases same
      exact last
    | error fault =>
      obtain ⟨absent, told⟩ := settled
      rw [h.registrations] at absent
      exact ⟨Registrations.find?_ofCalls_eq_none_iff.mp absent, told⟩
  same _ mem _ mem' same := h.ask_eq mem mem' same
  cached := h.builds.symm
  builds := h.builds_eq_card
  knows shape := by
    rw [h.knows_iff (Registrations.sorted_ofCalls calls), ← Option.ne_none_iff_isSome, ne_eq,
      Registrations.find?_ofCalls_eq_none_iff]
    push Not
    constructor
    · rintro ⟨⟨_, codec⟩, mem, rfl⟩
      exact ⟨codec, mem⟩
    · rintro ⟨codec, mem⟩
      exact ⟨_, mem, rfl⟩
  isRegistered shape := by
    rw [h.knows_iff (Registrations.sorted_ofCalls calls), Registry.isRegistered, h.registrations]
  refused _ _ _ refused := h.eq_of_lookup_eq_error (Registrations.sorted_ofCalls calls) refused

/-- Whatever is registered and whatever is done with the registry afterwards, at any time of the run: all
lookups so far, those for parts of values included, have been answered with one instance for each shape, of the
codec that was registered last; each was built once, and nothing else was built. Whatever is done next does
nothing to the registry but look shapes up, fails for want of a codec only if one of these lookups is refused,
and never finds an instance of another shape. -/
theorem keeps_of_play (calls : List Registration) (uses : List Use) :
    let start := Registry.ofRegistrations (.ofCalls calls)
    let r := Use.play uses start
    r.Keeps (calls.flatMap Registration.codecs) (Use.history uses start) ∧
      ∀ use : Use, LooksUp id use.act r (use.shapes r) ∧
        ∀ type, ¬ Fails use.act r (.misuse (.wrongInstance type)) := by
  intro start r
  have sorted := Registrations.sorted_ofCalls calls
  have sound : Sound (.ofCalls calls) (Use.history uses start) r := (Sound.ofRegistrations _).play sorted uses
  exact ⟨sound.keeps, fun use => ⟨use.looksUp_act r, sound.not_wrongInstance sorted use⟩⟩

-- the later codec counts, and the second lookup of a byte is answered with the first instance
example :
    let start := Registry.ofRegistrations (.ofCalls [.one (.uint8 .int32), .nullable .text, .one (.uint8 .text)])
    Use.history [.lookup .uint8, .lookup .text, .lookup .double, .lookup .uint8] start =
      [⟨.uint8, .ok ⟨.uint8 .text, 0⟩⟩, ⟨.text, .ok ⟨.text, 1⟩⟩,
        ⟨.double, .error (.misuse (.unregistered "f64"))⟩, ⟨.uint8, .ok ⟨.uint8 .text, 0⟩⟩] := rfl

end Registry

end DocumentClient
