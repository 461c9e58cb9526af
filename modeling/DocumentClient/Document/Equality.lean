import DocumentClient.Document.Basic

/-!
# Equality of documents

Two documents are equal if they have the same names with equal values, in whatever order. Arrays
compare item by item, doubles compare as numbers, and values of different kinds are never equal.
A value that holds a double that is no number is not even equal to itself.
-/

namespace DocumentClient

namespace Value

mutual

def beq : Value → Value → Bool
  | double a, double b => Number.equal a b
  | string a, string b => a = b
  | document fields, document others =>
    fields.length = others.length && fieldsWithin fields others
  | array items, array others => itemsEqual items others
  | binary a, binary b => a = b
  | undefined, undefined => true
  | objectId a, objectId b => a = b
  | boolean a, boolean b => a = b
  | dateTime a, dateTime b => a = b
  | null, null => true
  | regularExpression p o, regularExpression p' o' => p = p' && o = o'
  | dbPointer c id, dbPointer c' id' => c = c' && id = id'
  | javaScript a, javaScript b => a = b
  | symbol a, symbol b => a = b
  | javaScriptWithScope code scope, javaScriptWithScope code' scope' =>
    code = code' && (scope.length = scope'.length && fieldsWithin scope scope')
  | int32 a, int32 b => a = b
  | timestamp a, timestamp b => a = b
  | int64 a, int64 b => a = b
  | decimal128 a, decimal128 b => a = b
  | minKey, minKey => true
  | maxKey, maxKey => true
  | _, _ => false

/-- Every field has an equal one of its name among the others. -/
def fieldsWithin : List (String × Value) → List (String × Value) → Bool
  | [], _ => true
  | (name, v) :: rest, others =>
    (match others.lookup name with
      | some w => v.beq w
      | none => false) && fieldsWithin rest others

def itemsEqual : List Value → List Value → Bool
  | [], [] => true
  | v :: rest, w :: others => v.beq w && itemsEqual rest others
  | _, _ => false

end

instance : BEq Value := ⟨beq⟩

end Value

instance : BEq Document := ⟨fun a b => Value.document a.fields == Value.document b.fields⟩

end DocumentClient
