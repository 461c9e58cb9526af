import DocumentClient.Settings.Basic
import DocumentClient.Toml.Document
import DocumentClient.Toml.Quoted

/-!
# Settings as text

Settings are kept in TOML, in the sections `log` and `query`. Whatever is missing has its default,
and keys of other names are free. A section may also be an array that lists its values in order.

* `Settings.ofText` reads settings and refuses those that no query could use.
* `Settings.toText` writes all settings.
-/

namespace DocumentClient

open Toml (Node Table)

namespace Toml

def Node.text? : Node → Option String
  | .text s => some s
  | _ => none

def Node.boolean? : Node → Option Bool
  | .boolean b => some b
  | _ => none

def Node.integerWithin? (least greatest : Int) : Node → Option Int
  | .integer n => if least ≤ n ∧ n ≤ greatest then some n else none
  | _ => none

/-- The entries of a section, whose values may also be listed in the order of `names`. A moment has
no entries. -/
def Node.entries? (names : List String) : Node → Option Table
  | .table _ members => some members
  | .inline members => some members
  | .array items => some (names.zip items)
  | .moment => some []
  | _ => none

/-- What an entry says, or the default if there is none. -/
def Table.entry (name : String) (read : Node → Option α) (default : α) (t : Table) : Option α :=
  match t.lookup name with
  | some node => read node
  | none => some default

end Toml

def LogSettings.ofNode? (node : Node) : Option LogSettings := do
  let entries ← node.entries? ["level", "json"]
  let defaults : LogSettings := {}
  let level ← entries.entry "level" Node.text? defaults.level
  let json ← entries.entry "json" Node.boolean? defaults.json
  return { level, json }

def QueryDefaults.ofNode? (node : Node) : Option QueryDefaults := do
  let entries ← node.entries? ["batch_size", "timeout_ms"]
  let batchSize ← entries.entry "batch_size"
    (fun node => Int32.ofInt <$> node.integerWithin? (-2 ^ 31) (2 ^ 31 - 1)) 0
  let timeout ← entries.entry "timeout_ms"
    (fun node => (some ∘ UInt64.ofInt) <$> node.integerWithin? 0 (2 ^ 64 - 1)) none
  return { batchSize, timeout }

namespace Settings

/-- Reads all settings from the tree of a document. -/
def ofTable? (t : Table) : Option Settings := do
  let log ← t.entry "log" LogSettings.ofNode? {}
  let query ← t.entry "query" QueryDefaults.ofNode? {}
  return { log, query }

/-- Reads settings that a query can use. -/
def ofText (text : String) : Except Failure Settings := do
  match Table.ofToml text >>= ofTable? with
  | none => .error (.config .unparsable)
  | some settings =>
    settings.validate
    return settings

/-- Reads settings from the content of a file, if there is one. -/
def ofFile : Option String → Except Failure Settings
  | none => .error (.config .unreadable)
  | some text => ofText text

/-- Writes all settings. A time limit has to fit into the integers of the format. -/
def toText (s : Settings) : Except Failure String := do
  let limit ← match s.query.timeout with
    | none => pure ""
    | some ms =>
      if ms.toNat < 2 ^ 63 then pure ("timeout_ms = " ++ toString ms.toNat ++ "\n")
      else .error (.config .unwritable)
  return "[log]\nlevel = " ++ Toml.quoted s.log.level ++
    "\njson = " ++ (if s.log.json then "true" else "false") ++
    "\n\n[query]\nbatch_size = " ++ toString s.query.batchSize.toInt ++ "\n" ++ limit

end Settings

end DocumentClient
