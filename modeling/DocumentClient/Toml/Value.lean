import DocumentClient.Toml.Scalar

/-!
# Values with parts

Arrays may run over several lines and end in a comma; tables between braces may do neither. The depth
of nesting is bounded, so a value is read by recursion on the depth that is left.
-/

namespace DocumentClient.Toml.Scan

/-- One item of an array, if there is one before its end. -/
def item (value : Scan Node) : Scan (Option Node) := do
  gap
  if (← ahead) = some ']' then return none
  let node ← value
  gap
  if (← ahead) ≠ some ']' then expect ","
  return some node

def array (value : Scan Node) : Scan Node := do
  expect "["
  let items ← many (item value)
  expect "]"
  return .array items

/-- A key, its value, and the path to the table that gets them. -/
structure Assignment where
  path : List String
  name : String
  node : Node

def assignment (value : Scan Node) : Scan Assignment := do
  let (path, name) ← key
  expect "="
  let _ ← blanks
  let node ← value
  return ⟨path, name, node⟩

def inlineTable (value : Scan Node) : Scan Node := do
  expect "\x7b"
  let _ ← blanks
  if ← takes ['\x7d'] then return .inline []
  let assignments ← separated "," do
    let found ← assignment value
    let _ ← blanks
    pure found
  expect "\x7d"
  let members ← (assignments.foldlM (fun t a => Table.put a.name a.node a.path t) [] : Option Table)
  return .inline members

/-- A value that nests at most so deep. -/
def valueWithin : Nat → Scan Node
  | 0 => scalar
  | depth + 1 => array (valueWithin depth) <|> inlineTable (valueWithin depth) <|> scalar

def value : Scan Node := valueWithin (depthLimit - 1)

end DocumentClient.Toml.Scan
