import Descent.Value.Entries
import Descent.Value.Literal

/-!
# Operations on values

The functions that grammars apply to what they parsed. Each is made for some kinds of values and
refuses the others.
-/

namespace Descent.Value

/-- Add numbers, or append a text, a list or a tuple to another one. -/
def add (v w : Value) : Except Fault Value :=
  match v.toInt?, w.toInt? with
  | some m, some n => .ok (.int (m + n))
  | _, _ => match v, w with
    | .str s, .str t => .ok (.str (s ++ t))
    | .list vs, .list ws => .ok (.list (vs ++ ws))
    | .tuple vs, .tuple ws => .ok (.tuple (vs ++ ws))
    | _, _ => .error .typeMismatch

/-- The items of a value that has items: the characters of a text, the keys of a dictionary. -/
def items : Value → Except Fault (List Value)
  | .str text => .ok (text.map fun c => .str [c])
  | .list vs => .ok vs
  | .tuple vs => .ok vs
  | .dict entries => .ok (entries.map (·.1))
  | _ => .error .typeMismatch

def length (v : Value) : Except Fault Value :=
  v.items.map fun vs => .int vs.length

def toTuple (v : Value) : Except Fault Value :=
  v.items.map .tuple

/-- A text, a list or a tuple from its end to its start. -/
def reverse : Value → Except Fault Value
  | .str text => .ok (.str text.reverse)
  | .list vs => .ok (.list vs.reverse)
  | .tuple vs => .ok (.tuple vs.reverse)
  | _ => .error .typeMismatch

/-- The texts of several values, one after the other. -/
def joinItems : List Value → Except Fault Text
  | [] => .ok []
  | v :: vs => match v.toText? with
    | some text => (joinItems vs).map (text ++ ·)
    | none => .error .typeMismatch

/-- Join the items of a value, which have to be texts; so a text stays as it is. -/
def joinText (v : Value) : Except Fault Value := do
  return .str (← joinItems (← v.items))

def toPair (v : Value) : Except Fault (Value × Value) := do
  match ← v.items with
  | [first, second] => .ok (first, second)
  | other => .error (.notAPair other.length)

def insertItem (entries : Entries) (item : Value) : Except Fault Entries := do
  entries.insertPair (← item.toPair)

/-- The dictionary that the items of a value amount to, which have to be pairs. -/
def toDict (v : Value) : Except Fault Value := do
  let entries ← (← v.items).foldlM insertItem []
  return .dict entries

/-- Whether a value is nothing, false or zero, or has no items. -/
def isFalsy : Value → Bool
  | .null => true
  | .bool b => !b
  | .int n => n = 0
  | .str text => text.isEmpty
  | .list vs => vs.isEmpty
  | .tuple vs => vs.isEmpty
  | .dict entries => entries.isEmpty

/-- The written form of a limit, if a number is above it. The missing value sets no limit, and
only numbers and truth values can be one. -/
def exceeded? (limit : Value) (number : Nat) : Except Fault (Option String) :=
  match limit, limit.toInt? with
  | .null, _ => .ok none
  | _, some bound => .ok (if bound < number then some limit.literal else none)
  | _, none => .error .typeMismatch

end Descent.Value
