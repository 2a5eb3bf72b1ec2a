import Descent.Parser.Basic
import Descent.Text.Decimal
import Descent.Unicode.Letter

/-!
# Lexical parsers

Parsers that look at the characters of the input: single characters by a test, fixed texts, runs of
letters and blanks, natural numbers and quoted literals.
-/

namespace Descent

namespace Lexical

/-- The character that opens and closes a literal. -/
def quote : Char := '"'

/-- The character that, before a quote, takes its meaning away. -/
def escape : Char := '\\'

/-- The bound of natural numbers where a grammar sets none: the largest signed 64-bit integer. -/
def maxNatural : Nat := Nat.pow 2 63 - 1

/-- The most digits that a number may be written with. -/
def maxDigits : Nat := 4300

end Lexical

namespace Parser

open Lexical

variable {m : Type → Type} [Monad m]

def satisfyM (accepts : Char → m Bool) : Parser m Char := fun text =>
  match text with
  | [] => pure (.failure ⟨Text.exhausted, [], []⟩)
  | c :: rest => do
    if ← accepts c then pure (.success c rest)
    else pure (.failure ⟨Text.failureMessage text, text, []⟩)

def satisfy (accepts : Char → Bool) : Parser m Char :=
  satisfyM fun c => pure (accepts c)

def char (value : Char) : Parser m Char :=
  satisfy (· == value)

def oneOf (chars : Text) : Parser m Char :=
  satisfy chars.contains

def noneOf (chars : Text) : Parser m Char :=
  satisfy fun c => !chars.contains c

/-- Match the given text; nothing is consumed on a failure. -/
def string (value : Text) : Parser m Text := fun text =>
  if value.isPrefixOf text then pure (.success value (text.drop value.length))
  else
    pure (.failure
      ⟨"Expected \"" ++ String.ofList value ++ "\" at \"" ++ text.snippet ++ "\"", text, []⟩)

variable [MonadExceptOf Fault m]

def letters : Parser m Text :=
  (satisfy Unicode.isLetter).many1

def spaces : Parser m Unit :=
  (satisfy Unicode.isBlank).many.map fun _ => ()

/-- What a run of digits amounts to: its value, unless it has too many digits or is above a limit.
The limit is given as a function that tells the written form of a limit that a number exceeds. -/
def naturalOf (exceeded? : Nat → m (Option String)) (digits rest : Text) : m (Outcome Nat) :=
  if Lexical.maxDigits < digits.length then
    pure (.failure ⟨"Natural number too long: \"" ++ digits.snippet ++ "\"", rest, []⟩)
  else do
    match ← exceeded? (Text.decimalValue digits) with
    | none => pure (.success (Text.decimalValue digits) rest)
    | some limit =>
      pure (.failure
        ⟨"Natural number \"" ++ digits.snippet ++ "\" is larger than " ++ limit, rest, []⟩)

/-- Match one or more decimal digits, as a number that does not exceed a limit. -/
def naturalUnless (exceeded? : Nat → m (Option String)) : Parser m Nat := fun text => do
  (← (oneOf Text.decimalDigits).many1 text).flatMapSuccess (naturalOf exceeded?)

/-- The written form of a limit, if there is one and a number is above it. -/
def exceededLimit? (limit : Option Int) (number : Nat) : Option String :=
  limit.bind fun bound => if bound < number then some (toString bound) else none

/-- Match one or more decimal digits, as a number up to a limit. -/
def natural (limit : Option Int) : Parser m Nat :=
  naturalUnless fun number => pure (exceededLimit? limit number)

/-- Match a text in quotes, and give the text between them. A quote in the text stands after the
escape character; that character before anything else stands for itself. -/
def stringLiteral : Parser m Text :=
  let escapedQuote := (string [escape, quote]).map fun _ => quote
  (escapedQuote.alternate (noneOf [quote])).many.surroundedBy (char quote)

end Parser
end Descent
