import Descent.Value.Basic

/-!
# Equality of values

Values are compared by what they stand for: the truth values are the numbers one and zero, at any
depth, and dictionaries are equal without regard to the order of their entries. A list is never
equal to a tuple. The keys of dictionaries are compared in the same way; only values without lists
and dictionaries may be keys.
-/

namespace Descent.Value

mutual

/-- Whether two values stand for the same thing. -/
def same : Value → Value → Bool
  | .null, w => match w with
    | .null => true
    | _ => false
  | .bool b, w => w.toInt? = (Value.bool b).toInt?
  | .int n, w => w.toInt? = some n
  | .str s, w => match w with
    | .str t => s = t
    | _ => false
  | .list vs, w => match w with
    | .list ws => sameItems vs ws
    | _ => false
  | .tuple vs, w => match w with
    | .tuple ws => sameItems vs ws
    | _ => false
  | .dict vs, w => match w with
    | .dict ws => vs.length = ws.length && entriesIn vs ws
    | _ => false

/-- Whether two lists hold the same things in the same order. -/
def sameItems : List Value → List Value → Bool
  | [], ws => ws.isEmpty
  | v :: vs, ws => match ws with
    | [] => false
    | w :: ws => same v w && sameItems vs ws

/-- Whether each entry occurs among the others, with the same key and the same value. -/
def entriesIn : List (Value × Value) → List (Value × Value) → Bool
  | [], _ => true
  | (key, value) :: rest, others =>
    others.any (fun entry => same key entry.1 && same value entry.2) && entriesIn rest others

end

mutual

/-- Whether a value may be a key: it holds no list and no dictionary. -/
def isKey : Value → Bool
  | .null | .bool _ | .int _ | .str _ => true
  | .tuple items => areKeys items
  | .list _ | .dict _ => false

/-- Whether all of several values may be keys. -/
def areKeys : List Value → Bool
  | [] => true
  | v :: vs => isKey v && areKeys vs

end

end Descent.Value
