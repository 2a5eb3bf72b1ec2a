import Descent.Text.Basic
import Descent.Unicode.Blank
import Descent.Unicode.Number

/-!
# Regular expressions

Patterns over characters with repetition, ordered alternatives, anchors and lookahead, matched at
the start of a text. Of the ways to match, the one that comes first counts: earlier alternatives
before later ones, more rounds before fewer for a greedy repetition, fewer before more for a lazy
one.

Matching is written with a continuation that matches what comes after: it refuses a position by
giving none, and then the next way is tried. A round of a repetition that consumes nothing is not
followed by another one, so every repetition ends.
-/

namespace Descent

/-- How a pattern is to be read. -/
structure Regex.Flags where
  /-- Letters match in either case. -/
  ignoreCase : Bool
  /-- Anchors match at every line. -/
  multiline : Bool
  /-- A dot matches the line feed too. -/
  dotAll : Bool
  /-- Digits, word characters and blanks are those of ASCII. -/
  ascii : Bool
  deriving DecidableEq, Inhabited

/-- A set of characters in a pattern, or one part of such a set. -/
inductive Regex.CharSet where
  | one (c : Char)
  | range (low high : Char)
  | digit
  | word
  | blank
  | union (parts : List Regex.CharSet)
  | complement (set : Regex.CharSet)
  | dot
  deriving Inhabited

/-- A pattern. -/
inductive Regex where
  | empty
  | chars (set : Regex.CharSet)
  | seq (first second : Regex)
  | alt (first second : Regex)
  /-- At least `least` rounds, and at most `extra` more, or any number more. -/
  | loop (body : Regex) (least : Nat) (extra : Option Nat) (greedy : Bool)
  | start
  | stop
  | boundary
  | ahead (expected : Bool) (body : Regex)
  /-- Only the first way to match `body` counts. -/
  | atomic (body : Regex)
  deriving Inhabited

namespace Regex

/-- A position in a text: the character before it, and the text after it. -/
structure Cursor where
  before : Option Char
  after : Text
  deriving DecidableEq, Inhabited

/-! ## Characters -/

def Flags.isDigit (flags : Flags) (c : Char) : Bool :=
  if flags.ascii then c.isDigit else Unicode.isDecimal c

def Flags.isWord (flags : Flags) (c : Char) : Bool :=
  if flags.ascii then c.isAlphanum || c = '_' else Unicode.isWord c

def Flags.isBlank (flags : Flags) (c : Char) : Bool :=
  if flags.ascii then c.isWhitespace || c = '\x0b' || c = '\x0c' else Unicode.isBlank c

/-- The characters that one stands for: itself, and where case does not count its other case. -/
def Flags.variants (flags : Flags) (c : Char) : List Char :=
  if flags.ignoreCase then [c, c.toLower, c.toUpper] else [c]

mutual

/-- Whether a character belongs to a set. -/
def CharSet.contains (flags : Flags) (c : Char) : CharSet → Bool
  | .one d => (flags.variants c).contains d
  | .range low high => (flags.variants c).any fun d => low ≤ d && d ≤ high
  | .digit => flags.isDigit c
  | .word => flags.isWord c
  | .blank => flags.isBlank c
  | .union parts => anyContains flags c parts
  | .complement set => !set.contains flags c
  | .dot => flags.dotAll || c != '\n'

/-- Whether a character belongs to one of several sets. -/
def CharSet.anyContains (flags : Flags) (c : Char) : List CharSet → Bool
  | [] => false
  | set :: sets => set.contains flags c || anyContains flags c sets

end

/-! ## Anchors -/

/-- Whether a position is at the start of the text, or of a line where lines count. -/
def Cursor.atStart (flags : Flags) (cursor : Cursor) : Bool :=
  match cursor.before with
  | none => true
  | some c => flags.multiline && c = '\n'

/-- Whether a position is at the end of the text or before its last line feed, or at the end of a
line where lines count. -/
def Cursor.atStop (flags : Flags) (cursor : Cursor) : Bool :=
  match cursor.after with
  | [] => true
  | c :: rest => c = '\n' && (flags.multiline || rest.isEmpty)

/-- Whether a word begins or ends at a position. -/
def Cursor.atBoundary (flags : Flags) (cursor : Cursor) : Bool :=
  let isWord : Option Char → Bool := fun c => c.any flags.isWord
  isWord cursor.before != isWord cursor.after.head?

/-! ## Matching -/

/-- A way to match from a position, given how to go on from where it ends. -/
abbrev Step := Cursor → (Cursor → Option Cursor) → Option Cursor

/-- Go on from a position where a condition holds, and refuse it otherwise. -/
def Step.guard (condition : Cursor → Bool) : Step := fun cursor next =>
  if condition cursor then next cursor else none

def Step.exactly (step : Step) : Nat → Step
  | 0, cursor, next => next cursor
  | n + 1, cursor, next => step cursor fun after => step.exactly n after next

def Step.upTo (step : Step) (greedy : Bool) : Nat → Step
  | 0, cursor, next => next cursor
  | n + 1, cursor, next =>
    let round := fun (_ : Unit) => step cursor fun after =>
      if after.after.length < cursor.after.length then step.upTo greedy n after next
      else next after
    if greedy then (round ()).orElse fun _ => next cursor
    else (next cursor).orElse round

/-- Match a pattern from a position, and go on. -/
def run (flags : Flags) : Regex → Step
  | .empty, cursor, next => next cursor
  | .chars set, cursor, next =>
    match cursor.after with
    | [] => none
    | c :: rest => if set.contains flags c then next ⟨some c, rest⟩ else none
  | .seq first second, cursor, next => run flags first cursor fun after =>
    run flags second after next
  | .alt first second, cursor, next =>
    (run flags first cursor next).orElse fun _ => run flags second cursor next
  | .loop body least extra greedy, cursor, next =>
    Step.exactly (run flags body) least cursor fun after =>
      Step.upTo (run flags body) greedy (extra.getD after.after.length) after next
  | .start, cursor, next => Step.guard (Cursor.atStart flags) cursor next
  | .stop, cursor, next => Step.guard (Cursor.atStop flags) cursor next
  | .boundary, cursor, next => Step.guard (Cursor.atBoundary flags) cursor next
  | .ahead expected body, cursor, next =>
    if (run flags body cursor some).isSome = expected then next cursor else none
  | .atomic body, cursor, next => (run flags body cursor some).bind next

/-- The piece of a text that a pattern matches at its start, and what is left. -/
def matchStart? (regex : Regex) (flags : Flags) (text : Text) : Option (Text × Text) :=
  (regex.run flags ⟨none, text⟩ some).map fun last =>
    (text.take (text.length - last.after.length), last.after)

end Regex
end Descent
