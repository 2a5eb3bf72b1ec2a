import Descent.Text.Basic

/-!
# Values

What the parsers of a grammar produce: a small family of data, with lists, tuples and
dictionaries that may hold any of it.
-/

namespace Descent

/-- A value. A dictionary lists its entries in the order in which its keys came. -/
inductive Value where
  | null
  | bool (b : Bool)
  | int (n : Int)
  | str (text : Text)
  | list (items : List Value)
  | tuple (items : List Value)
  | dict (entries : List (Value × Value))
  deriving Inhabited

namespace Value

def pair (v w : Value) : Value := .tuple [v, w]

/-- The number that a value counts as in arithmetic; the truth values count as one and zero. -/
def toInt? : Value → Option Int
  | .int n => some n
  | .bool b => some (if b then 1 else 0)
  | _ => none

/-- The text of a value, if it is one. -/
def toText? : Value → Option Text
  | .str text => some text
  | _ => none

end Value
end Descent
