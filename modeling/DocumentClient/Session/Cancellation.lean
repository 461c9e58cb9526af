import DocumentClient.Failure

/-!
# Cancellation

A token tells whether an operation shall stop. Copies of a token share its state: once one of them is
cancelled, all are, and none is ever live again.

* `checkCancelled` is what every operation asks before it blocks.
* `Tokens` are tokens by number together with what they share.
* `Token` tells which token goes along with a message.
-/

namespace DocumentClient

/-- Fails if the operation shall stop. -/
def checkCancelled (cancelled : Bool) : Except Failure Unit :=
  if cancelled then .error .cancelled else .ok ()

/-- Tokens in the order in which they were made. -/
structure Tokens where
  /-- The states that tokens share. -/
  states : List Bool
  /-- For each token the number of its state. -/
  owners : List Nat
deriving DecidableEq, Repr

namespace Tokens

/-- One token that is not cancelled. -/
def one : Tokens := ⟨[false], [0]⟩

/-- A further token with a state of its own. -/
def fresh (ts : Tokens) : Tokens :=
  ⟨ts.states ++ [false], ts.owners ++ [ts.states.length]⟩

/-- A further token that shares the state of token `i`. -/
def copy (ts : Tokens) (i : Nat) : Tokens :=
  { ts with owners := ts.owners ++ [ts.owners.getD i 0] }

/-- Cancels token `i` and all its copies. -/
def cancel (ts : Tokens) (i : Nat) : Tokens :=
  { ts with states := ts.states.set (ts.owners.getD i 0) true }

def isCancelled (ts : Tokens) (i : Nat) : Bool :=
  ts.states.getD (ts.owners.getD i 0) false

end Tokens

inductive Token where
  | caller
  /-- A token that is made for this message, and that nobody else holds. -/
  | own
deriving DecidableEq, Repr

example : ((Tokens.one.copy 0).cancel 1).isCancelled 0 = true := by decide
example : ((Tokens.one.fresh).cancel 1).isCancelled 0 = false := by decide

end DocumentClient
