import Descent.Parser.Lexical
import Descent.Regex.Pattern
import Descent.Value.Operation

/-!
# Primitive parsers

The parsers of values that have no parts. Some can only be built from proper arguments; what they
refuse is a fault of the grammar.
-/

namespace Descent

inductive Primitive where
  | succeed (value : Value)
  | fail (message : String)
  | eof
  | satisfy (accepts : Char → Except Fault Bool)
  | string (text : Text)
  /-- A parser that matches where one of several texts stands, and consumes as many characters as
  there are texts. -/
  | stringAmong (texts : List Value)
  | regex (pattern : Regex.Pattern)
  | letters
  | spaces
  | skipBlank
  | natural (limit : Value)
  | stringLiteral
  /-- A parser that throws a fault on every input. -/
  | raise (fault : Fault)
  /-- A parser that consumes the input up to a cut. -/
  | take (cut : Int)
  /-- A parser that fails at a cut. -/
  | failAfter (cut : Int) (message : String)
  /-- A parser that fails at the end of the input, wherever it starts. -/
  | failBare (message : String)
  deriving Inhabited

namespace Primitive

/-! ## Building -/

def char (c : Char) : Primitive :=
  .satisfy fun d => .ok (d == c)

/-- The parser of the only character of a text. -/
def charOf (text : Text) : Except Fault Primitive :=
  match text with
  | [c] => .ok (.char c)
  | _ => .error (.notOneCharacter (.str text))

/-- The parser of any one of the given characters, of which there must be some. -/
def oneOf (chars : Text) : Except Fault Primitive :=
  if chars.isEmpty then .error .noCharacters
  else .ok (.satisfy fun c => .ok (chars.contains c))

def noneOf (chars : Text) : Primitive :=
  .satisfy fun c => .ok (!chars.contains c)

def letter : Primitive :=
  .satisfy fun c => .ok (Unicode.isLetter c)

def digit : Primitive :=
  .satisfy fun c => .ok (Text.decimalDigits.contains c)

def space : Primitive :=
  .satisfy fun c => .ok (Unicode.isBlank c)

/-- The parser of a given text, which must not be empty. -/
def stringOf (text : Text) : Except Fault Primitive :=
  if text.isEmpty then .error .emptyString else .ok (.string text)

/-- The parser that a building step gives, or one that throws the fault of that step. -/
def ofExcept : Except Fault Primitive → Primitive
  | .ok p => p
  | .error fault => .raise fault

/-! ## Building from values -/

/-- The parser of the only item of a value. It matches if that value is a text. -/
def charOfValue (value : Value) : Except Fault Primitive := do
  match value, ← value.items with
  | .str text, _ => charOf text
  | _, [_] => return .satisfy fun _ => .ok false
  | _, _ => throw (.notOneCharacter value)

/-- The parser of any one of the items of a value, of which there must be some. -/
def oneOfValue (value : Value) : Except Fault Primitive := do
  if value.isFalsy then throw .noCharacters
  let chars ← value.items
  if !Value.areKeys chars then throw .typeMismatch
  return .satisfy fun c => .ok (chars.any (Value.same (.str [c])))

/-- The parser of a value that is a text, or of the texts of a tuple. Any other value is found to
be unfit only when the parser runs. -/
def stringOfValue (value : Value) : Except Fault Primitive :=
  if value.isFalsy then .error .emptyString
  else match value with
    | .str text => .ok (.string text)
    | .tuple texts => .ok (.stringAmong texts)
    | _ => .ok (.raise .typeMismatch)

def reject (value : Value) : Primitive :=
  .fail ("rejected " ++ value.literal)

/-! ## Meaning -/

def matchPattern (pattern : Regex.Pattern) : Parser (Except Fault) Text := fun text =>
  match pattern.match? text with
  | some (matched, rest) => .ok (.success matched rest)
  | none =>
    .ok (.failure
      ⟨"Expected /" ++ String.ofList pattern.source ++ "/ at \"" ++ text.snippet ++ "\"",
        text, []⟩)

/-- Whether one of several texts stands at the start of the input; all before it must be texts. -/
def startsWithAny (text : Text) : List Value → Except Fault Bool
  | [] => .ok false
  | v :: vs => match v.toText? with
    | none => .error .typeMismatch
    | some value => if value.isPrefixOf text then .ok true else startsWithAny text vs

/-- Match where one of several texts stands, and consume as many characters as there are texts. -/
def matchAmong (texts : List Value) : Parser (Except Fault) Value := fun text => do
  if ← startsWithAny text texts then
    return .success (.tuple texts) (text.drop texts.length)
  else
    return .failure
      ⟨"Expected \"" ++ (Value.tuple texts).literal ++ "\" at \"" ++ text.snippet ++ "\"", text, []⟩

/-- How many characters stand before a cut. A cut below zero is counted from the end. -/
def cutLength (text : Text) (cut : Int) : Nat :=
  if 0 ≤ cut then cut.toNat else text.length - cut.natAbs

def parse : Primitive → Parser (Except Fault) Value
  | .succeed value => Parser.succeed value
  | .fail message => Parser.fail message
  | .eof => Parser.eof.map fun _ => .null
  | .satisfy accepts => (Parser.satisfyM accepts).map fun c => .str [c]
  | .string text => (Parser.string text).map .str
  | .stringAmong texts => matchAmong texts
  | .regex pattern => (matchPattern pattern).map .str
  | .letters => Parser.letters.map .str
  | .spaces => Parser.spaces.map fun _ => .null
  | .skipBlank => Parser.skipBlank.map fun _ => .null
  | .natural limit => (Parser.naturalUnless limit.exceeded?).map fun number => .int number
  | .stringLiteral => Parser.stringLiteral.map .str
  | .raise fault => fun _ => .error fault
  | .take cut => fun text =>
    .ok (.success (.str (text.take (cutLength text cut))) (text.drop (cutLength text cut)))
  | .failAfter cut message => fun text =>
    .ok (.failure ⟨message, text.drop (cutLength text cut), []⟩)
  | .failBare message => fun _ => .ok (.failure ⟨message, [], []⟩)

theorem parse_natural_int (bound : Int) :
    (Primitive.natural (.int bound)).parse
      = (Parser.natural (some bound)).map fun number => .int number := rfl

theorem parse_natural_null :
    (Primitive.natural .null).parse = (Parser.natural none).map fun number => .int number := rfl

end Primitive
end Descent
