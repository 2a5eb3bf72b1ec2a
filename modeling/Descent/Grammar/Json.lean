import Descent.Expr.Build

/-!
# A small dialect of JSON

Natural numbers, texts in quotes in which only the quote is escaped, the three keywords, arrays and
objects. A comma may follow an item or a pair and may be missing. Blanks may follow a value and
every mark inside it. An object becomes a dictionary: of equal keys the last one counts.
-/

namespace Descent.Grammar.Json

/-- How references to the whole grammar are shown in reports. -/
def valueOrigin : String := "<function json_parser.<locals>.get_value>"

def comma : Expr Mention := (Expr.char ',').token

def number : Expr Mention := .prim (.natural (.int Lexical.maxNatural))

def text : Expr Mention := .prim .stringLiteral

def boolean : Expr Mention :=
  ((Expr.string "true").mapTo fun _ => .bool true).alternate
    ((Expr.string "false").mapTo fun _ => .bool false)

def null : Expr Mention := (Expr.string "null").void

/-- An array: its items refer to the whole grammar by one reference that keeps what it finds. -/
def array : Expr Mention :=
  (Expr.between (((Expr.ref (.delayed (.recursive valueOrigin))).skipOptional comma).many)
    (Expr.char '[').token (Expr.char ']')).named "array"

/-- A key and its value. The reference to the whole grammar is a new one for each pair. -/
def pair : Expr Mention :=
  text.token.both
    (((Expr.char ':').token.andThen (.ref (.anew (.recursive valueOrigin)))).skipOptional comma)

def object : Expr Mention :=
  ((Expr.between pair.many (Expr.char '{').token (Expr.char '}')).map Value.toDict).named
    "object"

/-- A value and the blanks after it. -/
def value : Expr Mention :=
  .fix (Expr.choice
    [number.token, text.token, boolean.token, null.token, array.token, object.token])

end Descent.Grammar.Json
