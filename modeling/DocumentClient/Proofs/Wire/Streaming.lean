import DocumentClient.Proofs.Wire.Layout

/-!
# Documents that are written call by call

A caller may write a document piece by piece: enter and leave containers, give names and write values.
The calls describe a tree as brackets do (`Describes`), and if a writer accepts all of them and says that
it is done, what it gives out is what it was given before, followed by the layout of that tree.

The calls that describe a value do exactly what writing the value at once does, so the bytes are known
from the layout of values. What is left is that a writer which accepts its calls and is done has been
given the description of a document; the invariant `Stands` says how far a description has come.

Results:
1. `Describes.unique`: calls describe at most one tree.
2. `Describes.runAll_eq`: the description of a value does what writing the value does.
3. `Writer.Stands.run`, `Writer.Stands.runAll`: a writer that accepts its calls follows a description.
4. `Writer.exists_layout_of_runAll`: what a finished writer has.
-/

namespace DocumentClient

open Outcome Grammar

/-! ## Definitions -/

namespace Writer

/-- What a caller asks of a writer. -/
inductive Call where
  | startDocument
  | endDocument
  | startArray
  | endArray
  | name (text : String)
  | double (bits : UInt64)
  | string (text : String)
  | binary (data : Binary)
  | undefined
  | objectId (id : ObjectId)
  | boolean (b : Bool)
  | dateTime (t : Instant)
  | null
  | regularExpression (pattern options : String)
  | dbPointer (collection : String) (id : ObjectId)
  | javaScript (code : String)
  | symbol (text : String)
  | javaScriptWithScope (code : String) (scope : Document)
  | int32 (n : Int32)
  | timestamp (t : Timestamp)
  | int64 (n : Int64)
  | decimal128 (bytes : Vector UInt8 16)
  | minKey
  | maxKey
  | value (v : Value)
  | document (doc : Document)

namespace Call

/-- What the writer does. -/
def run : Call → Write Unit
  | startDocument => Write.startDocument
  | endDocument => Write.endDocument
  | startArray => Write.startArray
  | endArray => Write.endArray
  | name text => Write.name text
  | double bits => Write.double bits
  | string text => Write.string text
  | binary data => Write.binary data
  | undefined => Write.undefined
  | objectId id => Write.objectId id
  | boolean b => Write.boolean b
  | dateTime t => Write.dateTime t
  | null => Write.null
  | regularExpression pattern options => Write.regularExpression pattern options
  | dbPointer collection id => Write.dbPointer collection id
  | javaScript code => Write.javaScript code
  | symbol text => Write.symbol text
  | javaScriptWithScope code scope => Write.scopedCodeOf code (Write.document scope)
  | int32 n => Write.int32 n
  | timestamp t => Write.timestamp t
  | int64 n => Write.int64 n
  | decimal128 bytes => Write.decimal128 bytes
  | minKey => Write.minKey
  | maxKey => Write.maxKey
  | value v => Write.value v
  | document doc => Write.document doc

/-- Calls one after another, up to the first that fails. -/
def runAll : List Call → Write Unit
  | [] => pure ()
  | call :: calls => do
    call.run
    runAll calls

/-- The value that a single call writes. -/
def value? : Call → Option Value
  | startDocument | endDocument | startArray | endArray | name _ => none
  | double bits => some (.double bits)
  | string text => some (.string text)
  | binary data => some (.binary data)
  | undefined => some .undefined
  | objectId id => some (.objectId id)
  | boolean b => some (.boolean b)
  | dateTime t => some (.dateTime t)
  | null => some .null
  | regularExpression pattern options => some (.regularExpression pattern options)
  | dbPointer collection id => some (.dbPointer collection id)
  | javaScript code => some (.javaScript code)
  | symbol text => some (.symbol text)
  | javaScriptWithScope code scope => some (.javaScriptWithScope code scope.fields)
  | int32 n => some (.int32 n)
  | timestamp t => some (.timestamp t)
  | int64 n => some (.int64 n)
  | decimal128 bytes => some (.decimal128 bytes)
  | minKey => some .minKey
  | maxKey => some .maxKey
  | value v => some v
  | document doc => some (.document doc.fields)

end Call

/-- What calls may describe: a value, the fields of a document, or the items of an array. -/
inductive Part where
  | value (v : Value)
  | fields (entries : List (String × Value))
  | items (values : List Value)

/-- The calls describe a tree. Fields and items come in the order of the calls, and names may repeat. -/
inductive Describes : List Call → Part → Prop
  | whole {call : Call} {v : Value} (h : call.value? = some v) : Describes [call] (.value v)
  | document {calls : List Call} {entries : List (String × Value)}
      (inner : Describes calls (.fields entries)) :
      Describes (.startDocument :: (calls ++ [.endDocument])) (.value (.document entries))
  | array {calls : List Call} {values : List Value} (inner : Describes calls (.items values)) :
      Describes (.startArray :: (calls ++ [.endArray])) (.value (.array values))
  | noField : Describes [] (.fields [])
  | field {text : String} {front calls : List Call} {v : Value} {entries : List (String × Value)}
      (here : Describes front (.value v)) (behind : Describes calls (.fields entries)) :
      Describes (.name text :: (front ++ calls)) (.fields ((text, v) :: entries))
  | noItem : Describes [] (.items [])
  | item {front calls : List Call} {v : Value} {values : List Value}
      (here : Describes front (.value v)) (behind : Describes calls (.items values)) :
      Describes (front ++ calls) (.items (v :: values))

end Writer

namespace Writer

variable {calls front : List Call} {call : Call} {v : Value}

/-! ## Descriptions -/

namespace Describes

/-- A value begins with a call that leaves no container. -/
theorem exists_head (h : Describes calls (.value v)) :
    ∃ call rest, calls = call :: rest ∧ call ≠ .endArray := by
  cases h with
  | whole h =>
    refine ⟨_, [], rfl, ?_⟩
    rintro rfl
    cases h
  | document inner => exact ⟨_, _, rfl, nofun⟩
  | array inner => exact ⟨_, _, rfl, nofun⟩

/-- Where a description ends is known from its beginning: a value ends by itself, fields and items end
with their container. -/
def Ends (calls : List Call) : Part → Prop
  | .value v => ∀ other u r s, Describes other (.value u) → calls ++ r = other ++ s →
      calls = other ∧ v = u
  | .fields entries => ∀ other entries' r s, Describes other (.fields entries') →
      calls ++ .endDocument :: r = other ++ .endDocument :: s → calls = other ∧ entries = entries'
  | .items values => ∀ other values' r s, Describes other (.items values') →
      calls ++ .endArray :: r = other ++ .endArray :: s → calls = other ∧ values = values'

theorem ends {part : Part} (h : Describes calls part) : Ends calls part := by
  induction h with
  | @whole call v h =>
    intro other u r s h' eq
    cases h' with
    | whole h' =>
      obtain ⟨rfl, -⟩ := List.cons.inj eq
      exact ⟨rfl, Option.some.inj (h.symm.trans h')⟩
    | document inner =>
      obtain ⟨rfl, -⟩ := List.cons.inj eq
      cases h
    | array inner =>
      obtain ⟨rfl, -⟩ := List.cons.inj eq
      cases h
  | @document calls entries inner ih =>
    intro other u r s h' eq
    cases h' with
    | whole h' =>
      obtain ⟨rfl, -⟩ := List.cons.inj eq
      cases h'
    | document inner' =>
      rw [List.cons_append, List.cons_append, List.append_assoc, List.append_assoc] at eq
      obtain ⟨rfl, rfl⟩ := ih _ _ _ _ inner' (List.cons.inj eq).2
      exact ⟨rfl, rfl⟩
    | array inner' => cases (List.cons.inj eq).1
  | @array calls values inner ih =>
    intro other u r s h' eq
    cases h' with
    | whole h' =>
      obtain ⟨rfl, -⟩ := List.cons.inj eq
      cases h'
    | document inner' => cases (List.cons.inj eq).1
    | array inner' =>
      rw [List.cons_append, List.cons_append, List.append_assoc, List.append_assoc] at eq
      obtain ⟨rfl, rfl⟩ := ih _ _ _ _ inner' (List.cons.inj eq).2
      exact ⟨rfl, rfl⟩
  | noField =>
    intro other entries' r s h' eq
    cases h' with
    | noField => exact ⟨rfl, rfl⟩
    | field here behind => cases (List.cons.inj eq).1
  | @field text front calls v entries here behind ihh ihb =>
    intro other entries' r s h' eq
    cases h' with
    | noField => cases (List.cons.inj eq).1
    | field here' behind' =>
      rw [List.cons_append, List.cons_append, List.append_assoc, List.append_assoc] at eq
      obtain ⟨same, rest⟩ := List.cons.inj eq
      cases same
      obtain ⟨rfl, rfl⟩ := ihh _ _ _ _ here' rest
      obtain ⟨rfl, rfl⟩ := ihb _ _ _ _ behind' (List.append_cancel_left rest)
      exact ⟨rfl, rfl⟩
  | noItem =>
    intro other values' r s h' eq
    cases h' with
    | noItem => exact ⟨rfl, rfl⟩
    | item here behind =>
      obtain ⟨call, rest, rfl, opens⟩ := here.exists_head
      exact absurd (List.cons.inj eq).1.symm opens
  | @item front calls v values here behind ihh ihb =>
    intro other values' r s h' eq
    cases h' with
    | noItem =>
      obtain ⟨call, rest, rfl, opens⟩ := here.exists_head
      exact absurd (List.cons.inj eq).1 opens
    | item here' behind' =>
      rw [List.append_assoc, List.append_assoc] at eq
      obtain ⟨rfl, rfl⟩ := ihh _ _ _ _ here' eq
      obtain ⟨rfl, rfl⟩ := ihb _ _ _ _ behind' (List.append_cancel_left eq)
      exact ⟨rfl, rfl⟩

/-- Calls describe at most one tree. -/
theorem unique {u : Value} (h : Describes calls (.value v)) (h' : Describes calls (.value u)) :
    v = u :=
  (h.ends calls u [] [] h' rfl).2

end Describes

/-! ## What a description does -/

/-- Writes a part at once. -/
def Part.write : Part → Write Unit
  | .value v => Write.value v
  | .fields entries => Write.fields entries
  | .items values => Write.items values

namespace Call

theorem run_of_value? (h : call.value? = some v) : call.run = Write.value v := by
  cases call <;> cases h <;> rfl

theorem runAll_singleton (call : Call) : runAll [call] = call.run :=
  bind_pure_unit

theorem runAll_append (calls more : List Call) :
    runAll (calls ++ more) = runAll calls >>= fun _ => runAll more := by
  induction calls with
  | nil => exact (pure_bind _ _).symm
  | cons call calls ih =>
    rw [List.cons_append, runAll, runAll, ih, bind_assoc]

end Call

/-- The description of a part does what writing the part at once does. -/
theorem Describes.runAll_eq {part : Part} (h : Describes calls part) :
    Call.runAll calls = part.write := by
  induction h with
  | whole h => exact (Call.runAll_singleton _).trans (Call.run_of_value? h)
  | document inner ih =>
    rw [Call.runAll, Call.runAll_append, Call.runAll_singleton, ih]
    rfl
  | array inner ih =>
    rw [Call.runAll, Call.runAll_append, Call.runAll_singleton, ih]
    rfl
  | noField => rfl
  | field here behind ihh ihb =>
    rw [Call.runAll, Call.runAll_append, ihh, ihb]
    rfl
  | noItem => rfl
  | item here behind ihh ihb =>
    rw [Call.runAll_append, ihh, ihb]
    rfl

/-- So the calls that describe a document are accepted iff it can be written, and the writer has its
layout then. -/
theorem Describes.runAll_eq_ok_iff {doc : Document} {base : ByteArray} {w : Writer}
    (h : Describes calls (.value (.document doc.fields))) :
    Call.runAll calls (.ofBytes base) = .ok () w ↔
      doc.Writable ∧ w = ⟨base ++ doc.layout.toByteArray, [], .done, none⟩ := by
  rw [h.runAll_eq]
  exact Write.whole_laid (Write.fields_laid doc.fields) base

/-! ## How far a description has come -/

/-- Which of the open containers are arrays, innermost first. -/
def shape (w : Writer) : List Bool :=
  w.containers.map fun container => container.nextIndex.isSome

/-- Whether an element comes next, or the value of an element. -/
inductive Stage where
  | element
  | value

/-- The calls have opened containers and described what lies in them so far. The containers are told
from the innermost on, and `true` is an array. -/
inductive Inside : Stage → List Call → List Bool → Prop
  | top {calls : List Call} {entries : List (String × Value)}
      (h : Describes calls (.fields entries)) : Inside .element (.startDocument :: calls) [false]
  | name {calls : List Call} {outer : List Bool} (text : String)
      (h : Inside .element calls (false :: outer)) :
      Inside .value (calls ++ [.name text]) (false :: outer)
  | item {calls : List Call} {outer : List Bool} (h : Inside .element calls (true :: outer)) :
      Inside .value calls (true :: outer)
  | document {before calls : List Call} {outer : List Bool} {entries : List (String × Value)}
      (around : Inside .value before outer) (h : Describes calls (.fields entries)) :
      Inside .element (before ++ .startDocument :: calls) (false :: outer)
  | array {before calls : List Call} {outer : List Bool} {values : List Value}
      (around : Inside .value before outer) (h : Describes calls (.items values)) :
      Inside .element (before ++ .startArray :: calls) (true :: outer)

/-- How far the calls that a writer has accepted describe a document. -/
inductive Stands : List Call → Writer → Prop
  | initial (base : ByteArray) : Stands [] (.ofBytes base)
  | inside {calls : List Call} {w : Writer} (h : Inside .element calls w.shape)
      (phase : w.phase = .name) (name : w.pendingName = none) : Stands calls w
  | named {calls : List Call} {w : Writer} {outer : List Bool} {text : String}
      (h : Inside .element calls (false :: outer)) (shape : w.shape = false :: outer)
      (phase : w.phase = .value) (name : w.pendingName = some text) :
      Stands (calls ++ [.name text]) w
  | done {calls : List Call} {w : Writer} {doc : Document}
      (h : Describes calls (.value (.document doc.fields))) (phase : w.phase = .done) : Stands calls w

namespace Describes

/-- Fields may be described one by one from the front. -/
theorem field_concat {entries : List (String × Value)} {text : String}
    (h : Describes calls (.fields entries)) (last : Describes front (.value v)) :
    Describes (calls ++ .name text :: front) (.fields (entries ++ [(text, v)])) := by
  induction entries generalizing calls with
  | nil =>
    cases h with
    | noField =>
      have one : Describes (.name text :: (front ++ [])) (.fields [(text, v)]) := .field last .noField
      rw [List.append_nil] at one
      exact one
  | cons entry entries ih =>
    cases h with
    | field here behind =>
      rw [List.cons_append, List.append_assoc]
      exact .field here (ih behind)

theorem item_concat {values : List Value} (h : Describes calls (.items values))
    (last : Describes front (.value v)) : Describes (calls ++ front) (.items (values ++ [v])) := by
  induction values generalizing calls with
  | nil =>
    cases h with
    | noItem =>
      have one := Describes.item last .noItem
      rw [List.append_nil] at one
      exact one
  | cons value values ih =>
    cases h with
    | item here behind =>
      rw [List.append_assoc]
      exact .item here (ih behind)

end Describes

namespace Inside

variable {outer : List Bool}

theorem ne_nil {stage : Stage} (h : Inside stage calls outer) : outer ≠ [] := by
  cases h <;> exact List.cons_ne_nil _ _

/-- Where a value may come, a value that is described brings the description on. -/
theorem extend (h : Inside .value calls outer) (last : Describes front (.value v)) :
    Inside .element (calls ++ front) outer := by
  cases h with
  | name text h =>
    rw [List.append_assoc]
    cases h with
    | top h => exact .top (h.field_concat last)
    | document around h =>
      rw [List.append_assoc]
      exact .document around (h.field_concat last)
  | item h =>
    cases h with
    | array around h =>
      rw [List.append_assoc]
      exact .array around (h.item_concat last)

end Inside

/-! ## Steps -/

section Steps

variable {w w' w₁ : Writer} {text : String}

/-- Behind a value the writer stands before the next element of the same containers. -/
theorem Awaits.after (h : w.Awaits text w₁) (bs : List UInt8) :
    (w₁.add bs).shape = w.shape ∧ (w₁.add bs).phase = .name ∧ (w₁.add bs).pendingName = none := by
  cases h <;> exact ⟨rfl, rfl, rfl⟩

namespace Stands

/-- A writer that begins a value stands where a value may come. -/
theorem ready {kind : Kind} {m : Writer} (h : Stands calls w)
    (begins : Write.beginValue kind w = .ok () m) :
    Inside .value calls w.shape ∧ ∃ text w₁, w.Awaits text w₁ := by
  cases h with
  | initial base => cases begins
  | inside h phase name =>
    obtain ⟨base, containers, _, _⟩ := w
    cases phase
    cases name
    cases containers with
    | nil => cases begins
    | cons container outer =>
      obtain ⟨body, _ | index⟩ := container
      · cases begins
      · exact ⟨.item h, _, _, .item base body outer index⟩
  | @named calls _ rest text h shape phase name =>
    obtain ⟨base, containers, _, _⟩ := w
    cases phase
    cases name
    cases containers with
    | nil => cases shape
    | cons container outer =>
      obtain ⟨body, _ | index⟩ := container
      · rw [shape]
        exact ⟨.name text h, _, _, .field base body outer text⟩
      · cases shape
  | done h phase =>
    obtain ⟨base, containers, _, _⟩ := w
    cases phase
    cases begins

end Stands

/-- Every value but a document is written behind its tag and name. -/
theorem exists_write_eq (v : Value) :
    (∃ rest, Write.value v = Write.beginValue v.kind >>= fun _ => rest) ∨
      ∃ entries, v = .document entries := by
  cases v with
  | document entries => exact .inr ⟨entries, rfl⟩
  | array values => exact .inl ⟨_, bind_assoc _ _ _⟩
  | _ => exact .inl ⟨_, rfl⟩

/-- A document is entered behind a tag and a name, unless it is the whole. -/
theorem of_startDocument_eq_ok (ok : Write.startDocument w = .ok () w') :
    w.phase = .initial ∨ ∃ m, Write.beginValue .document w = .ok () m := by
  unfold Write.startDocument at ok
  rw [get_bind] at ok
  by_cases whole : w.phase = .initial
  · exact .inl whole
  · rw [if_pos whole] at ok
    obtain ⟨⟨⟩, m, begins, -⟩ := bind_eq_ok_iff.mp ok
    exact .inr ⟨m, begins⟩

theorem inArray_of_shape {array : Bool} {outer : List Bool} (shape : w.shape = array :: outer) :
    w.inArray = array := by
  obtain ⟨base, containers, _, _⟩ := w
  cases containers with
  | nil => cases shape
  | cons container rest => exact (List.cons.inj shape).1

/-- Leaving the innermost container. -/
theorem of_closeContainer_eq_ok {array : Bool} {outer : List Bool} (shape : w.shape = array :: outer)
    (name : w.pendingName = none) (ok : Write.closeContainer w = .ok () w') :
    w'.shape = outer ∧ w'.pendingName = none ∧ w'.phase = if outer = [] then .done else .name := by
  obtain ⟨base, containers, phase, _⟩ := w
  cases name
  cases containers with
  | nil => cases shape
  | cons container rest =>
    obtain ⟨body, index⟩ := container
    obtain ⟨-, rfl⟩ := List.cons.inj shape
    obtain ⟨-, rfl⟩ := Write.closeContainer_eq_ok_iff.mp ok
    cases rest <;> exact ⟨rfl, rfl, rfl⟩

namespace Stands

/-- A writer before its document has accepted nothing. -/
theorem of_initial (h : Stands calls w) (whole : w.phase = .initial) :
    calls = [] ∧ ∃ base, w = .ofBytes base := by
  cases h with
  | initial base => exact ⟨rfl, base, rfl⟩
  | inside h phase name => exact absurd (phase.symm.trans whole) nofun
  | named h shape phase name => exact absurd (phase.symm.trans whole) nofun
  | done h phase => exact absurd (phase.symm.trans whole) nofun

/-- A writer before an element is inside of containers. -/
theorem of_name (h : Stands calls w) (before : w.phase = .name) :
    Inside .element calls w.shape ∧ w.pendingName = none := by
  cases h with
  | initial base => cases before
  | inside h phase name => exact ⟨h, name⟩
  | named h shape phase name => exact absurd (phase.symm.trans before) nofun
  | done h phase => exact absurd (phase.symm.trans before) nofun

/-- A description of a value brings the whole description on. -/
theorem value (h : Stands calls w) (here : Describes front (.value v))
    (ok : Write.value v w = .ok () w') : Stands (calls ++ front) w' := by
  have inside {kind : Kind} {m : Writer} (begins : Write.beginValue kind w = .ok () m) :
      Stands (calls ++ front) w' := by
    obtain ⟨place, text, w₁, awaits⟩ := h.ready begins
    obtain ⟨-, rfl⟩ := (Write.value_laid v awaits).mp ok
    obtain ⟨shape, phase, name⟩ := awaits.after (header v.kind text ++ v.payload)
    exact .inside (shape ▸ place.extend here) phase name
  rcases exists_write_eq v with ⟨rest, write⟩ | ⟨entries, rfl⟩
  · rw [write] at ok
    obtain ⟨⟨⟩, m, begins, -⟩ := bind_eq_ok_iff.mp ok
    exact inside begins
  · obtain ⟨⟨⟩, m, start, -⟩ := bind_eq_ok_iff.mp ok
    rcases of_startDocument_eq_ok start with whole | ⟨m, begins⟩
    · obtain ⟨rfl, base, rfl⟩ := h.of_initial whole
      obtain ⟨-, rfl⟩ := (Write.whole_laid (Write.fields_laid entries) base).mp ok
      exact @done front _ ⟨entries⟩ here rfl
    · exact inside begins

theorem startDocument (h : Stands calls w) (ok : Write.startDocument w = .ok () w') :
    Stands (calls ++ [.startDocument]) w' := by
  rcases of_startDocument_eq_ok ok with whole | ⟨m, begins⟩
  · obtain ⟨rfl, base, rfl⟩ := h.of_initial whole
    cases ok
    exact .inside (.top .noField) rfl rfl
  · obtain ⟨place, text, w₁, awaits⟩ := h.ready begins
    rw [← (awaits.after (header .document text)).1] at place
    obtain ⟨-, rfl⟩ := (Write.openContainer_laid awaits).mp ((Write.startDocument_eq_ok_iff awaits).mp ok)
    exact .inside (.document place .noField) rfl rfl

theorem startArray (h : Stands calls w) (ok : Write.startArray w = .ok () w') :
    Stands (calls ++ [.startArray]) w' := by
  obtain ⟨⟨⟩, m, begins, -⟩ := bind_eq_ok_iff.mp ok
  obtain ⟨place, text, w₁, awaits⟩ := h.ready begins
  rw [← (awaits.after (header .array text)).1] at place
  obtain ⟨-, rfl⟩ := (Write.openContainer_laid awaits).mp ((Write.startArray_eq_ok_iff awaits).mp ok)
  exact .inside (.array place .noItem) rfl rfl

theorem name (h : Stands calls w) (ok : Write.name text w = .ok () w') :
    Stands (calls ++ [.name text]) w' := by
  unfold Write.name at ok
  rw [get_bind] at ok
  simp only [guard_eq_ok_iff, set_eq_ok_iff, Decidable.not_not, Bool.not_eq_true] at ok
  obtain ⟨before, free, -, rfl⟩ := ok
  obtain ⟨place, -⟩ := h.of_name before
  cases hs : w.shape with
  | nil => exact absurd hs place.ne_nil
  | cons array outer =>
    rw [inArray_of_shape hs] at free
    subst free
    rw [hs] at place
    exact .named place hs rfl rfl

theorem endDocument (h : Stands calls w) (ok : Write.endDocument w = .ok () w') :
    Stands (calls ++ [.endDocument]) w' := by
  unfold Write.endDocument at ok
  rw [get_bind] at ok
  obtain ⟨fine, ok⟩ := guard_eq_ok_iff.mp ok
  obtain ⟨before, inDocument⟩ := not_or.mp fine
  obtain ⟨place, name⟩ := h.of_name (Decidable.not_not.mp before)
  cases hs : w.shape with
  | nil => exact absurd hs place.ne_nil
  | cons array outer =>
    obtain ⟨shape, name, phase⟩ := of_closeContainer_eq_ok hs name ok
    rw [inArray_of_shape hs] at inDocument
    rw [hs] at place
    cases place with
    | top filled => exact @done _ w' ⟨_⟩ (.document filled) phase
    | document around filled =>
      rw [if_neg around.ne_nil] at phase
      rw [List.append_assoc]
      exact .inside (shape ▸ around.extend (.document filled)) phase name
    | array around filled => exact absurd rfl inDocument

theorem endArray (h : Stands calls w) (ok : Write.endArray w = .ok () w') :
    Stands (calls ++ [.endArray]) w' := by
  unfold Write.endArray at ok
  rw [get_bind] at ok
  obtain ⟨fine, ok⟩ := guard_eq_ok_iff.mp ok
  obtain ⟨before, inArray⟩ := not_or.mp fine
  obtain ⟨place, name⟩ := h.of_name (Decidable.not_not.mp before)
  cases hs : w.shape with
  | nil => exact absurd hs place.ne_nil
  | cons array outer =>
    obtain ⟨shape, name, phase⟩ := of_closeContainer_eq_ok hs name ok
    rw [inArray_of_shape hs, Decidable.not_not] at inArray
    rw [hs] at place
    cases place with
    | top filled => cases inArray
    | document around filled => cases inArray
    | array around filled =>
      rw [if_neg around.ne_nil] at phase
      rw [List.append_assoc]
      exact .inside (shape ▸ around.extend (.array filled)) phase name

/-- A call that is accepted brings the description on. -/
theorem run (h : Stands calls w) (ok : call.run w = .ok () w') : Stands (calls ++ [call]) w' := by
  cases hv : call.value? with
  | some v =>
    rw [Call.run_of_value? hv] at ok
    exact h.value (.whole hv) ok
  | none =>
    cases call with
    | startDocument => exact h.startDocument ok
    | endDocument => exact h.endDocument ok
    | startArray => exact h.startArray ok
    | endArray => exact h.endArray ok
    | name text => exact h.name ok
    | _ => cases hv

/-- Calls that are accepted one after another bring the description on. -/
theorem runAll {more : List Call} (h : Stands calls w) (ok : Call.runAll more w = .ok () w') :
    Stands (calls ++ more) w' := by
  induction more generalizing calls w with
  | nil =>
    obtain ⟨-, rfl⟩ := pure_eq_ok_iff.mp ok
    rw [List.append_nil]
    exact h
  | cons call more ih =>
    obtain ⟨⟨⟩, m, first, rest⟩ := bind_eq_ok_iff.mp ok
    rw [List.append_cons]
    exact ih (h.run first) rest

/-- A writer that is done has been given the description of a document. -/
theorem exists_describes (h : Stands calls w) (done : w.isDone = true) :
    ∃ doc : Document, Describes calls (.value (.document doc.fields)) := by
  have phase : w.phase = .done := of_decide_eq_true done
  cases h with
  | initial base => cases phase
  | inside h before name => exact absurd (before.symm.trans phase) nofun
  | named h shape before name => exact absurd (before.symm.trans phase) nofun
  | done h _ => exact ⟨_, h⟩

end Stands

end Steps

/-- A writer that accepts all calls and is done has the layout of the document that the calls describe,
behind the bytes that it was given before. -/
theorem exists_layout_of_runAll {base : ByteArray} {w : Writer}
    (ok : Call.runAll calls (.ofBytes base) = .ok () w) (done : w.isDone = true) :
    ∃ doc : Document, Describes calls (.value (.document doc.fields)) ∧ doc.Writable ∧
      w = ⟨base ++ doc.layout.toByteArray, [], .done, none⟩ := by
  obtain ⟨doc, describes⟩ := ((Stands.initial base).runAll ok).exists_describes done
  exact ⟨doc, describes, describes.runAll_eq_ok_iff.mp ok⟩

end Writer

end DocumentClient
