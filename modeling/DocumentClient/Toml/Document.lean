import DocumentClient.Toml.Value

/-!
# Whole documents

A document is a sequence of lines. A line in brackets turns to a table, and the keys that follow
belong to it.

* `lines?` reads the lines, `Table.ofLines` builds the tree from them.
* `Table.ofToml` is the two together.
-/

namespace DocumentClient.Toml

inductive Line where
  /-- Blank or a comment. -/
  | silent
  | table (path : List String) (name : String)
  | element (path : List String) (name : String)
  | assignment (assigned : Scan.Assignment)

namespace Scan

/-- What stands on a line before its end. -/
def lineContent : Scan Line := do
  if ← takes ['[', '['] then
    let (path, name) ← key
    expect "]]"
    return .element path name
  else if ← takes ['['] then
    let (path, name) ← key
    expect "]"
    return .table path name
  else
    match ← ahead with
    | none | some '#' | some '\n' | some '\r' => return .silent
    | some _ => .assignment <$> assignment value

def line : Scan Line := do
  let _ ← blanks
  let found ← lineContent
  endOfLine
  return found

/-- All lines. A mark of the byte order before the first is skipped. -/
def lines : Scan (List Line) := do
  let _ ← takes ['\ufeff']
  many do
    match ← ahead with
    | none => return none
    | some _ => some <$> line

end Scan

def lines? (text : String) : Option (List Line) := Scan.whole Scan.lines text

namespace Table

/-- Adds a line to a tree, of which the table at `current` is the one that keys belong to. -/
def addLine : List String × Table → Line → Option (List String × Table)
  | (current, root), .silent => some (current, root)
  | (_, root), .table path name => do
    let root' ← within (state name) path root
    return (path ++ [name], root')
  | (_, root), .element path name => do
    let root' ← within (append name) path root
    return (path ++ [name], root')
  | (current, root), .assignment a => do
    let root' ← within (put a.name a.node a.path) current root
    return (current, root')

def ofLines (lines : List Line) : Option Table :=
  (·.2) <$> lines.foldlM addLine ([], [])

def ofToml (text : String) : Option Table :=
  lines? text >>= ofLines

end Table

end DocumentClient.Toml
