import Descent.Expr.Basic

/-!
# Empty markup tags

A tag without content, such as `<input type="text" value="hello"/>`: a name and attributes, with
blanks after every part but the equals sign. The value is the pair of the name and the dictionary
of the attributes.
-/

namespace Descent.Grammar.Html

variable {ι : Type}

/-- A key, an equals sign and a text in quotes. -/
def tagAttribute : Expr ι :=
  ((Expr.prim .letters).token.both
    ((Expr.char '=').andThen (.prim .stringLiteral))).named "tag attribute"

def openBracket : Expr ι := (Expr.char '<').token.named "open bracket"

def closeBracket : Expr ι := (Expr.string "/>").token.named "close bracket"

def tagName : Expr ι := (Expr.prim .letters).token.named "tag name"

/-- The attributes of a tag, as a dictionary. -/
def attributes : Expr ι := tagAttribute.token.many.map Value.toDict

/-- A tag without content, with its attributes. -/
def emptyTag : Expr ι :=
  (Expr.between (tagName.both attributes).token openBracket closeBracket).named "empty html tag"

end Descent.Grammar.Html
