import DocumentClient.Document.Basic
import DocumentClient.Settings.Basic
import DocumentClient.Text.Blank

/-!
# Filters of log events

A filter is a list of directives between commas. Each names a level, a target, or a target and the
level from which its events are logged.

* `isFilter` says which texts are filters.
* `LogSettings.install` says why a process cannot start to log.
-/

namespace DocumentClient

/-- The names of the levels, from the one that logs nothing to the one that logs everything. -/
def levelNames : List String := ["off", "error", "warn", "info", "debug", "trace"]

/-- Whether a text is the name of a level, in letters of any case, or the place of one in the list. -/
def isLevel (text : String) : Bool :=
  levelNames.contains (text.map Char.toLower) ||
    (Document.index? text).any (· < levelNames.length)

/-- Whether a target may start with a character. All characters outside ASCII count as letters. -/
def startsTarget (c : Char) : Bool :=
  c.isAlphanum || c = '-' || c = ':' || c = '_' || '\x7f' < c

/-- Whether a text is a directive. What follows the first equals sign has to be a level or nothing at
all. A directive without one may stand between blanks. -/
def isDirective (cs : List Char) : Bool :=
  match Text.trimBlank cs with
  | [] => false
  | c :: others =>
    startsTarget c &&
      (!others.contains '=' ||
        cs.head? = some c &&
          let level := String.ofList ((cs.dropWhile (· ≠ '=')).drop 1)
          level.isEmpty || isLevel level)

/-- Whether a text is a filter. Nothing at all between two commas is no directive and does no harm. -/
def isFilter (text : String) : Bool :=
  (text.toList.splitOn ',').all fun cs => cs.isEmpty || isDirective cs

/-- Whether a process may start to log: the level has to be a filter, and none may be at work yet. -/
def LogSettings.install (settings : LogSettings) (installed : Bool) : Except Failure Unit :=
  if !isFilter settings.level then .error (.config .badFilter)
  else if installed then .error (.config .alreadyInstalled)
  else .ok ()

example : isFilter "client=debug,info" = true := by cbv
example : isFilter "a=b=c" = false := by cbv
example : isFilter "" = true := by cbv

end DocumentClient
