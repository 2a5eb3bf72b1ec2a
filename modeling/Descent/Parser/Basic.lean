import Descent.Fault
import Descent.Outcome
import Descent.Unicode.Blank

/-!
# Parsers and their combinators

A parser is a function from the input that is left to an outcome, in a monad that can throw
faults. The combinators below are built from their operands alone: no parser keeps anything between
its runs, and nothing catches a fault.

Repetition is the one loop. It ends because every round has to leave less input than it found; a
round that succeeds without doing so is a fault.
-/

namespace Descent

/-- A function from the input that is left to an outcome. -/
abbrev Parser (m : Type → Type) (α : Type) := Text → m (Outcome α)

namespace Parser

variable {m : Type → Type} [Monad m] {α β γ : Type}

/-! ## Single steps -/

def succeed (value : α) : Parser m α := fun text =>
  pure (.success value text)

def fail (message : String) : Parser m α := fun text =>
  pure (.failure ⟨message, text, []⟩)

def eof : Parser m Unit := fun text =>
  if text.isEmpty then pure (.success () text)
  else pure (.failure ⟨"Expected end of input at \"" ++ text.snippet ++ "\"", text, []⟩)

/-- Skip the blanks that the input starts with, if any. -/
def skipBlank : Parser m Unit := fun text =>
  pure (.success () (text.dropWhile Unicode.isBlank))

/-! ## Sequences -/

def mapM (p : Parser m α) (f : α → m β) : Parser m β := fun text => do
  (← p text).mapValue f

def map (p : Parser m α) (f : α → β) : Parser m β :=
  p.mapM fun value => pure (f value)

/-- Choose the next parser by the value, and run it on the rest of the input. -/
def flatMap (p : Parser m α) (next : α → Parser m β) : Parser m β := fun text => do
  (← p text).flatMapSuccess next

def andThen (p : Parser m α) (q : Parser m β) : Parser m β := fun text => do
  (← p text).flatMapSuccess fun _ rest => q rest

/-- Match one parser and then another, and keep the value of the first. -/
def precedes (p : Parser m α) (q : Parser m β) : Parser m α := fun text => do
  (← p text).flatMapSuccess fun value rest => do
    (← q rest).mapValue fun _ => pure value

/-- Match between two others, and keep the value in the middle. -/
def between (p : Parser m α) (left : Parser m β) (right : Parser m γ) : Parser m α :=
  (left.andThen p).precedes right

def surroundedBy (p : Parser m α) (bound : Parser m β) : Parser m α :=
  p.between bound bound

def token (p : Parser m α) : Parser m α :=
  p.precedes skipBlank

def atEnd (p : Parser m α) : Parser m α :=
  p.precedes eof

/-- Match one parser and then try another; where the second fails, the first one's rest is left. -/
def skipOptional (p : Parser m α) (q : Parser m β) : Parser m α := fun text => do
  (← p text).flatMapSuccess fun value rest => do
    (← q rest).flatMapEither (fun _ after => pure (.success value after))
      (fun _ => pure (.success value rest))

/-! ## Choice -/

/-- Ordered choice. The second parser runs where the first one fails, from the same position. If
both fail, the failure that got further is reported, the first one on a tie. -/
def alternate (p q : Parser m α) : Parser m α := fun text => do
  match ← p text with
  | .success value rest => pure (.success value rest)
  | .failure first =>
    match ← q text with
    | .success value rest => pure (.success value rest)
    | .failure second => pure (.failure (first.deeper second))

/-- The message of a choice among no parsers. -/
def noAlternative : String := "No alternative matched"

def choice (ps : List (Parser m α)) : Parser m α :=
  ps.foldr alternate (fail noAlternative)

/-- Match, or succeed with a default value without consuming anything. -/
def optional (p : Parser m α) (default : α) : Parser m α :=
  p.alternate (succeed default)

/-! ## Looking without consuming -/

def lookahead (p : Parser m α) : Parser m α := fun text => do
  (← p text).flatMapSuccess fun value _ => pure (.success value text)

/-- Succeed where another parser fails, and fail where it matches. -/
def notFollowedBy (p : Parser m α) : Parser m Unit := fun text => do
  (← p text).flatMapEither
    (fun _ _ => pure (.failure ⟨"Unexpected match at \"" ++ text.snippet ++ "\"", text, []⟩))
    (fun _ => pure (.success () text))

/-! ## Repetition -/

section Repetition

variable [MonadExceptOf Fault m]

/-- Repeat a parser until it fails; `values` are the values of the rounds so far, last one first. -/
def manyFrom (p : Parser m α) (values : List α) (text : Text) : m (Outcome (List α)) := do
  match ← p text with
  | .failure _ => pure (.success values.reverse text)
  | .success value rest =>
    if rest.length < text.length then manyFrom p (value :: values) rest
    else throw (.endlessRepetition text)
termination_by text.length

/-- Match zero or more times. Input that a round consumed is never given back. -/
def many (p : Parser m α) : Parser m (List α) :=
  p.manyFrom []

def many1 (p : Parser m α) : Parser m (List α) :=
  p.flatMap fun first => p.many.map fun others => first :: others

/-- Match zero or more times with a separator in between. A trailing separator is left. -/
def sepBy (p : Parser m α) (separator : Parser m β) : Parser m (List α) :=
  (p.flatMap fun first =>
    (separator.andThen p).many.map fun others => first :: others).optional []

/-- Match a given number of times more; `values` are the values of the rounds so far, last one
first. -/
def timesFrom (p : Parser m α) (values : List α) : Nat → Parser m (List α)
  | 0 => succeed values.reverse
  | n + 1 => p.flatMap fun value => p.timesFrom (value :: values) n

def times (p : Parser m α) (n : Nat) : Parser m (List α) :=
  p.timesFrom [] n

end Repetition

/-! ## Names -/

/-- Put a label before the message of a failure, and note where the parser started. -/
def name (p : Parser m α) (label : String) : Parser m α := fun text => do
  match ← p text with
  | .success value rest => pure (.success value rest)
  | .failure f => pure (.failure (f.annotate label text.length))

/-- Use a parser whose only effect is to throw faults in any monad that can throw them. -/
def lift [MonadExceptOf Fault m] (p : Parser (Except Fault) α) : Parser m α := fun text =>
  MonadExcept.ofExcept (p text)

end Parser
end Descent
