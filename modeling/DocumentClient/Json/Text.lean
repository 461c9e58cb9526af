import DocumentClient.Bytes.Hex
import DocumentClient.Number.Shortest

/-!
# JSON texts

A JSON tree keeps the members of its objects in order. Its text has no blanks.

* `escape` writes one character of a string; only the quote, the backslash and control characters are
  not written as themselves.
* `JsonTree.text` writes a whole tree.
-/

namespace DocumentClient

inductive JsonTree where
  | null
  | boolean (b : Bool)
  | integer (n : Int)
  /-- A number as the text that it is written with. -/
  | numeral (text : String)
  | string (text : String)
  | array (items : List JsonTree)
  | object (members : List (String × JsonTree))
deriving Inhabited

namespace JsonTree

def escape (c : Char) : String :=
  if c = '"' then "\\\""
  else if c = '\\' then "\\\\"
  else if c = '\x08' then "\\b"
  else if c = '\x0c' then "\\f"
  else if c = '\n' then "\\n"
  else if c = '\r' then "\\r"
  else if c = '\t' then "\\t"
  else if c.toNat < 0x20 then "\\u00" ++ String.ofList (Bytes.hexPair (UInt8.ofNat c.toNat))
  else String.singleton c

def quoted (s : String) : String :=
  "\"" ++ s.foldl (fun text c => text ++ escape c) "" ++ "\""

mutual

def text : JsonTree → String
  | null => "null"
  | boolean b => if b then "true" else "false"
  | integer n => toString n
  | numeral s => s
  | string s => quoted s
  | array items => "[" ++ itemsText items ++ "]"
  | object members => "\x7b" ++ membersText members ++ "\x7d"

/-- The texts of items with commas between them. -/
def itemsText : List JsonTree → String
  | [] => ""
  | [v] => text v
  | v :: rest => text v ++ "," ++ itemsText rest

/-- The texts of members with commas between them. -/
def membersText : List (String × JsonTree) → String
  | [] => ""
  | [(name, v)] => quoted name ++ ":" ++ text v
  | (name, v) :: rest => quoted name ++ ":" ++ text v ++ "," ++ membersText rest

end

end JsonTree

example : JsonTree.escape '"' = "\\\"" := by decide
example : JsonTree.escape '\x1f' = "\\u001f" := by decide
example : JsonTree.escape '/' = "/" := by decide

end DocumentClient
