import Descent.Text.Basic

/-!
# Places in a text

A place is a position in a text together with its line and column, both counted from one. Lines
are counted by line feeds. What is shown of the line at a place is taken from the lines of the text
in a wider sense, in which other characters end lines too.
-/

namespace Descent.Text

/-! ## Lines -/

def isLineBreak (c : Char) : Bool :=
  c = '\n' || c = '\r' || c = '\x0b' || c = '\x0c' || c = '\x1c' || c = '\x1d' || c = '\x1e'
    || c = '\u0085' || c = '\u2028' || c = '\u2029'

/-- The lines of a text without their breaks. A carriage return and a line feed are one break, and
a break at the end of the text begins no further line. -/
def lines : Text → List Text
  | [] => []
  | '\r' :: '\n' :: rest => [] :: lines rest
  | c :: rest =>
    if isLineBreak c then [] :: lines rest
    else match lines rest with
      | [] => [[c]]
      | line :: more => (c :: line) :: more

/-! ## Places -/

/-- A position in a text, with its line and column. -/
structure Place where
  offset : Nat
  line : Nat
  column : Nat
  deriving DecidableEq, Inhabited

/-- The position nearest to a number that may lie outside the text. -/
def clamp (text : Text) (position : Int) : Nat :=
  min position.toNat text.length

/-- The place at an offset. -/
def placeAt (text : Text) (offset : Nat) : Place :=
  let before := text.take offset
  { offset := offset
    line := before.count '\n' + 1
    column := (before.reverse.takeWhile (· != '\n')).length + 1 }

/-! ## Excerpts -/

/-- A piece of a line, with the indent of a mark below it. -/
structure Excerpt where
  shown : Text
  indent : Nat
  deriving DecidableEq, Inhabited

/-- The most columns on one side of the mark. -/
def excerptReach : Nat := 20

/-- The piece of a line around a column, if the line reaches that far. -/
def excerptOf? (line : Text) (column : Nat) : Option Excerpt :=
  if line.length < column then none
  else if column ≤ excerptReach then some ⟨line.take (2 * excerptReach), column - 1⟩
  else some ⟨(line.drop (column - excerptReach)).take (2 * excerptReach), excerptReach⟩

/-- The excerpt at a place: it shows the line that has the number of the place's line. -/
def excerptAt? (text : Text) (place : Place) : Option Excerpt :=
  text.lines[place.line - 1]?.bind fun line => excerptOf? line place.column

end Descent.Text
