import Descent.Outcome
import Descent.Text.Place

/-!
# Parse errors

A parse error is what a failure becomes for the reader of the input: the whole input, the position
where parsing failed, and notes that show places in it. The first note is about the position
itself, and the notes of the failure follow, outermost first.
-/

namespace Descent

/-- A remark that is shown with its place and, where there is one, an excerpt of the input. -/
structure PlacedNote where
  label : Option String
  place : Text.Place
  excerpt : Option Text.Excerpt
  deriving DecidableEq, Inhabited

namespace PlacedNote

/-- The note about a position, which counts as the nearest one inside the input. -/
def ofPosition (source : Text) (position : Int) (label : Option String) : PlacedNote :=
  let place := source.placeAt (source.clamp position)
  ⟨label, place, source.excerptAt? place⟩

def textLines (note : PlacedNote) : List String :=
  note.label.toList
    ++ ["At position " ++ toString note.place.offset ++ " (line " ++ toString note.place.line
        ++ ", column " ++ toString note.place.column ++ ")"]
    ++ match note.excerpt with
      | none => []
      | some excerpt =>
        [String.ofList excerpt.shown, String.ofList (List.replicate excerpt.indent ' ' ++ ['^'])]

def text (note : PlacedNote) : String :=
  "\n".intercalate note.textLines

end PlacedNote

/-- A failure of parsing, as it is reported. -/
structure ParseError where
  source : Text
  /-- The position that was given, which may lie outside the input. -/
  position : Int
  message : Option String
  notes : List PlacedNote
  deriving DecidableEq, Inhabited

namespace ParseError

def appendAt (error : ParseError) (position : Int) (label : Option String) : ParseError :=
  { error with notes := error.notes ++ [.ofPosition error.source position label] }

/-- Add a note whose place is given by the length of the input that was left. -/
def appendNote (error : ParseError) (note : Note) : ParseError :=
  error.appendAt (error.source.length - note.left) note.message

/-- The error at a position, with notes that are listed innermost first. -/
def create (source : Text) (position : Int) (message : Option String) (notes : List Note) :
    ParseError :=
  notes.reverse.foldl appendNote
    (appendAt ⟨source, position, message, []⟩ position none)

/-- The text of an error: its message, if there is one. -/
def text (error : ParseError) : String :=
  error.message.getD ""

end ParseError

/-- The error that a failure amounts to for the given whole input. -/
def Failure.error (failure : Failure) (source : Text) : ParseError :=
  .create source (source.length - failure.remaining.length) (some failure.message) failure.notes

namespace Outcome

/-- The value of a success, or the error of a failure for the given whole input. -/
def toExcept {α : Type} (outcome : Outcome α) (source : Text) : Except ParseError α :=
  match outcome with
  | .success value _ => .ok value
  | .failure f => .error (f.error source)

end Outcome
end Descent
