import Descent.Value.Identity
import Descent.Value.Literal

/-!
# Faults

A fault stops a run at once and passes through every combinator. A faulty grammar or a function
handed in by the caller causes it, never the input of a well-built grammar: that ends in a failure,
which is an outcome.
-/

namespace Descent

/-- Why a parser could not be built, or its run was given up. -/
inductive Fault where
  /-- A repeated parser matched without consuming anything where `rest` was left. -/
  | endlessRepetition (rest : Text)
  | notOneCharacter (given : Value)
  | noCharacters
  | emptyString
  /-- Flags came with a pattern that had already been compiled. -/
  | flagsOnCompiled
  /-- The text of a pattern is not well formed. -/
  | badPattern
  /-- A value with `items` items stands where a pair is needed. -/
  | notAPair (items : Nat)
  /-- An operation met a value that it is not made for. -/
  | typeMismatch
  /-- A function of the caller gave up. -/
  | raised (message : String)
  | unknownName (name : String)
  /-- An outcome that is neither a success nor a failure has no operations. -/
  | notImplemented
  /-- More references were entered inside one another than a grammar without left recursion can. -/
  | tooDeep
  deriving DecidableEq, Inhabited

/-- The message of a fault. The two faults of the values and patterns themselves carry none. -/
def Fault.message : Fault → Option String
  | .endlessRepetition rest =>
    some ("Repeated parser matched without consuming input at \"" ++ rest.snippet ++ "\"")
  | .notOneCharacter given => some ("Expected a single character, got " ++ given.literal ++ ".")
  | .noCharacters => some "At least one character required."
  | .emptyString => some "Expected a non-empty string."
  | .flagsOnCompiled => some "cannot process flags argument with a compiled pattern"
  | .badPattern => none
  | .notAPair items =>
    some (if items < 2 then
      "not enough values to unpack (expected 2, got " ++ toString items ++ ")"
      else "too many values to unpack (expected 2)")
  | .typeMismatch => none
  | .raised message => some message
  | .unknownName name => some name
  | .notImplemented => some ""
  | .tooDeep => some "left recursion"

end Descent
