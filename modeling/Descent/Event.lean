import Descent.Value.Identity
import Descent.Value.Literal

/-!
# Events

What a run reports on the way: the outcomes of traced parsers, and the resolution of references.
-/

namespace Descent

inductive Event where
  /-- A traced parser succeeded, and left `left` characters. -/
  | matched (label : String) (value : Value) (left : Nat)
  /-- A traced parser that started at `text` failed. -/
  | failed (label : String) (text : Text) (message : String)
  /-- A reference was resolved for the first time. -/
  | resolved (origin : String)
  deriving DecidableEq, Inhabited

def Event.message : Event → String
  | .matched label value left =>
    label ++ ": matched " ++ value.literal ++ ", " ++ toString left ++ " characters left"
  | .failed label text message =>
    label ++ ": failed at \"" ++ text.snippet ++ "\": " ++ message
  | .resolved origin => "Resolved delayed parser from " ++ origin

/-- Whether an event reports the outcome of a traced parser. -/
def Event.isTrace : Event → Bool
  | .matched .. | .failed .. => true
  | .resolved _ => false

end Descent
