import Descent.Value.Identity
import Descent.Value.Literal

/-!
# Outcomes

What a parser returns: a success with a value, or a failure with a message, and in both cases the
input that was left. Names that a grammar gives to its parts are recorded in a failure as notes.
The functions below touch only the side that they are named after; the other side passes through
unchanged.
-/

namespace Descent

/-- A remark about a place, which is given by the length of the input that was left there. -/
structure Note where
  left : Int
  message : Option String
  deriving DecidableEq, Inhabited

structure Failure where
  message : String
  /-- The input that was left where the failure happened. -/
  remaining : Text
  /-- The notes of the named parsers that failed, innermost first. -/
  notes : List Note
  deriving DecidableEq, Inhabited

namespace Failure

/-- Put a label before the message, and note where the labelled parser started. -/
def annotate (failure : Failure) (label : String) (left : Int) : Failure :=
  { message := label ++ ": " ++ failure.message
    remaining := failure.remaining
    notes := failure.notes ++ [⟨left, some label⟩] }

/-- Whichever of two failures got further into the input, the first one on a tie. -/
def deeper (failure other : Failure) : Failure :=
  if failure.remaining.length ≤ other.remaining.length then failure else other

end Failure

inductive Outcome (α : Type) where
  | success (value : α) (remaining : Text)
  | failure (failure : Failure)
  deriving DecidableEq, Inhabited

namespace Outcome

variable {m : Type → Type} [Monad m] {α β : Type}

def remaining : Outcome α → Text
  | .success _ rest => rest
  | .failure f => f.remaining

def isSuccess : Outcome α → Bool
  | .success _ _ => true
  | .failure _ => false

def flatMapEither (outcome : Outcome α) (onSuccess : α → Text → m (Outcome β))
    (onFailure : String → m (Outcome β)) : m (Outcome β) :=
  match outcome with
  | .success value rest => onSuccess value rest
  | .failure f => onFailure f.message

def flatMapSuccess (outcome : Outcome α) (next : α → Text → m (Outcome β)) : m (Outcome β) :=
  match outcome with
  | .success value rest => next value rest
  | .failure f => pure (.failure f)

def flatMapFailure (outcome : Outcome α) (next : String → m (Outcome α)) :
    m (Outcome α) :=
  match outcome with
  | .success value rest => pure (.success value rest)
  | .failure f => next f.message

def mapValue (outcome : Outcome α) (f : α → m β) : m (Outcome β) :=
  match outcome with
  | .success value rest => return .success (← f value) rest
  | .failure f => pure (.failure f)

/-- Replace the message of a failure; its place and its notes stay. -/
def mapFailure (outcome : Outcome α) (f : String → m String) : m (Outcome α) :=
  match outcome with
  | .success value rest => pure (.success value rest)
  | .failure old => return .failure { old with message := ← f old.message }

/-- The written form of an outcome. Of a failure it shows the message alone. -/
def literal : Outcome Value → String
  | .success value rest => "Success(" ++ value.literal ++ ", " ++ rest.quoted ++ ")"
  | .failure f => "Failure(" ++ Text.quoted f.message.toList ++ ")"

end Outcome

def Note.literal (note : Note) : String :=
  "PosNote(" ++ toString note.left ++ ", "
    ++ (note.message.map fun s => Text.quoted s.toList).getD Value.nullLiteral ++ ")"

end Descent
