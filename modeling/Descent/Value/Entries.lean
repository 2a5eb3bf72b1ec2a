import Descent.Fault
import Descent.Value.Equality

/-!
# Entries of a dictionary

Entries stand in the order in which their keys came. A key that is put in again keeps its place
and the form in which it came first, and takes the new value.
-/

namespace Descent.Value

abbrev Entries := List (Value × Value)

namespace Entries

/-- Put a value under a key. -/
def insert (entries : Entries) (key value : Value) : Entries :=
  match entries with
  | [] => [(key, value)]
  | (k, v) :: rest => if k.same key then (k, value) :: rest else (k, v) :: insert rest key value

/-- Put a pair in, if its first part may be a key. -/
def insertPair (entries : Entries) (pair : Value × Value) : Except Fault Entries :=
  if pair.1.isKey then .ok (entries.insert pair.1 pair.2) else .error .typeMismatch

def insertPairs (entries : Entries) (pairs : List (Value × Value)) : Except Fault Entries :=
  pairs.foldlM insertPair entries

def ofPairs (pairs : List (Value × Value)) : Except Fault Entries :=
  insertPairs [] pairs

end Entries
end Descent.Value
