import Descent.Fault
import Descent.Regex.Token

/-!
# Patterns

Reading a pattern builds its tree from the tokens, with one open group for every parenthesis that
waits for its partner. A quantifier applies to the piece before it. There must be such a piece, and
it must be neither an anchor nor quantified already.
-/

namespace Descent.Regex

/-- What a quantifier may find before it. -/
inductive Piece where
  | plain (regex : Regex)
  | anchor (regex : Regex)
  | quantified (regex : Regex)
  deriving Inhabited

def Piece.regex : Piece → Regex
  | .plain r => r
  | .anchor r => r
  | .quantified r => r

/-- A group that is not closed yet: its finished alternatives and the pieces of the current one,
both with the last one first. -/
structure OpenGroup where
  group : Group
  alternatives : List Regex
  pieces : List Piece
  deriving Inhabited

namespace OpenGroup

def begin (group : Group) : OpenGroup := ⟨group, [], []⟩

def current (g : OpenGroup) : Regex :=
  g.pieces.foldl (fun tail piece => .seq piece.regex tail) .empty

def finish (g : OpenGroup) : Regex :=
  let body := g.alternatives.foldl (fun tail first => .alt first tail) g.current
  match g.group with
  | .plain => body
  | .ahead expected => .ahead expected body

def push (g : OpenGroup) (piece : Piece) : OpenGroup :=
  { g with pieces := piece :: g.pieces }

def nextAlternative (g : OpenGroup) : OpenGroup :=
  { g with alternatives := g.current :: g.alternatives, pieces := [] }

def quantify? (g : OpenGroup) (q : Quantifier) : Option OpenGroup :=
  match g.pieces with
  | .plain r :: rest => some { g with pieces := .quantified (q.apply r) :: rest }
  | _ => none

end OpenGroup

/-- The open groups after one more token, innermost first. -/
def groupStep? : List OpenGroup → Token → Option (List OpenGroup)
  | [], _ => none
  | g :: outer, token => match token with
    | .chars set => some (g.push (.plain (.chars set)) :: outer)
    | .start => some (g.push (.anchor .start) :: outer)
    | .stop => some (g.push (.anchor .stop) :: outer)
    | .boundary => some (g.push (.anchor .boundary) :: outer)
    | .bar => some (g.nextAlternative :: outer)
    | .quantifier q => (g.quantify? q).map (· :: outer)
    | .opening group => some (.begin group :: g :: outer)
    | .closing => match outer with
      | [] => none
      | parent :: outer => some (parent.push (.plain g.finish) :: outer)

/-- The tree of the pattern that a text writes, if it is well formed. -/
def ofText? (text : Text) : Option Regex := do
  match ← (← Token.scan? text).foldlM groupStep? [.begin .plain] with
  | [whole] => return whole.finish
  | _ => none

/-- A pattern that is ready to be matched, with the text that it was read from. -/
structure Pattern where
  source : Text
  flags : Flags
  regex : Regex
  deriving Inhabited

namespace Pattern

/-- The flags that letters stand for: `i`, `s`, `m` and `a`. -/
def flagsOf (letters : Text) : Flags :=
  { ignoreCase := letters.contains 'i'
    multiline := letters.contains 'm'
    dotAll := letters.contains 's'
    ascii := letters.contains 'a' }

def compile (source letters : Text) : Except Fault Pattern :=
  match ofText? source with
  | some regex => .ok ⟨source, flagsOf letters, regex⟩
  | none => .error .badPattern

/-- Use a pattern that has been compiled; it takes no more flags. -/
def reuse (pattern : Pattern) (letters : Text) : Except Fault Pattern :=
  if letters.isEmpty then .ok pattern else .error .flagsOnCompiled

/-- The piece of a text that a pattern matches at its start, and what is left. -/
def match? (pattern : Pattern) (text : Text) : Option (Text × Text) :=
  pattern.regex.matchStart? pattern.flags text

end Pattern
end Descent.Regex
