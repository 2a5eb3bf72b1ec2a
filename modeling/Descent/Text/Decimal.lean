import Descent.Text.Basic

/-!
# Decimal notation

Natural numbers as they are written with the ten digits of ASCII, most significant one first.
-/

namespace Descent.Text

def decimalDigits : Text := ['0', '1', '2', '3', '4', '5', '6', '7', '8', '9']

/-- The number that a run of digits writes. -/
def decimalValue (digits : Text) : Nat :=
  digits.foldl (fun n c => 10 * n + (c.toNat - '0'.toNat)) 0

@[simp] theorem decimalValue_nil : decimalValue [] = 0 := rfl

/-- A further digit at the end is worth itself, and makes all others worth ten times as much. -/
theorem decimalValue_append_singleton (digits : Text) (c : Char) :
    decimalValue (digits ++ [c]) = 10 * decimalValue digits + (c.toNat - '0'.toNat) := by
  simp [decimalValue]

end Descent.Text
