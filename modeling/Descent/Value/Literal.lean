import Descent.Text.Quoted
import Descent.Value.Basic

/-!
# Literals

The written form of a value: text in quotes, lists in brackets, tuples in parentheses with a comma
after a lone item, dictionaries in braces with a colon between key and value.
-/

namespace Descent.Value

def boolLiteral (b : Bool) : String := if b then "True" else "False"

def nullLiteral : String := "None"

mutual

def literal : Value → String
  | .null => nullLiteral
  | .bool b => boolLiteral b
  | .int n => toString n
  | .str text => text.quoted
  | .list items => "[" ++ ", ".intercalate (itemLiterals items) ++ "]"
  | .tuple items => match itemLiterals items with
    | [item] => "(" ++ item ++ ",)"
    | several => "(" ++ ", ".intercalate several ++ ")"
  | .dict entries => "\x7b" ++ ", ".intercalate (entryLiterals entries) ++ "\x7d"

def itemLiterals : List Value → List String
  | [] => []
  | v :: vs => literal v :: itemLiterals vs

def entryLiterals : List (Value × Value) → List String
  | [] => []
  | (key, value) :: rest => (literal key ++ ": " ++ literal value) :: entryLiterals rest

end

end Descent.Value
