/-!
# Text

Parsers read lists of characters and look only at what is left of their input. This module holds
the short quotations of the remaining input that messages show.
-/

namespace Descent

/-- A text: its characters in order. -/
abbrev Text := List Char

namespace Text

/-- The most characters of remaining input that a message quotes. -/
def snippetLength : Nat := 20

/-- The start of a text, as messages quote it. -/
def snippet (text : Text) : String :=
  String.ofList (text.take snippetLength)

/-- What a message says when a character was needed and none was left. -/
def exhausted : String := "Exhausted input"

/-- Why a single character was not accepted at the start of a text. -/
def failureMessage (text : Text) : String :=
  match text with
  | [] => exhausted
  | c :: _ => "Failed at char '" ++ String.singleton c ++ "' in \"" ++ text.snippet ++ "\""

@[simp] theorem snippet_nil : snippet [] = "" := rfl

@[simp] theorem failureMessage_nil : failureMessage [] = exhausted := rfl

theorem snippet_eq_of_length_le {text : Text} (h : text.length ≤ snippetLength) :
    text.snippet = String.ofList text := by
  simp [snippet, List.take_of_length_le h]

end Text
end Descent
