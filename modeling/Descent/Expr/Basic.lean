import Descent.Expr.Primitive

/-!
# Parser expressions

A parser of values as a tree of its parts. References to other parsers are leaves, of a type `ι`
that is a parameter: what a reference means is left to whoever runs the expression.

A recursive parser is written with `fix`: references inside it may mean the whole of it.
-/

namespace Descent

inductive Unary where
  | map (f : Value → Except Fault Value)
  /-- Choose a primitive parser by the value, and go on with it. -/
  | bind (next : Value → Primitive)
  /-- Go on with the parser that the value names. -/
  | dispatch
  | many
  | many1
  | lookahead
  | notFollowedBy
  | name (label : String)
  | trace (label : String)

inductive Binary where
  | andThen
  | precedes
  | skipOptional
  | alternate
  | sepBy
  | surroundedBy
  /-- Match both, and keep the pair of their values. -/
  | both
  /-- Match the second parser as many times as the value of the first one says. -/
  | times

/-- A parser of values, with references of type `ι`. -/
inductive Expr (ι : Type) where
  | prim (p : Primitive)
  | unary (op : Unary) (p : Expr ι)
  | binary (op : Binary) (p q : Expr ι)
  | between (p left right : Expr ι)
  /-- Go on with the parser that a function makes of the value. -/
  | flatMap (p : Expr ι) (next : Value → Expr ι)
  | fix (body : Expr ι)
  | ref (r : ι)

namespace Expr

variable {ι : Type}

instance : Inhabited (Expr ι) := ⟨.prim .eof⟩

/-! ## Derived forms -/

def map (p : Expr ι) (f : Value → Except Fault Value) : Expr ι := .unary (.map f) p

def mapTo (p : Expr ι) (f : Value → Value) : Expr ι := p.map fun value => .ok (f value)

def many (p : Expr ι) : Expr ι := .unary .many p

def named (p : Expr ι) (label : String) : Expr ι := .unary (.name label) p

def andThen (p q : Expr ι) : Expr ι := .binary .andThen p q

def precedes (p q : Expr ι) : Expr ι := .binary .precedes p q

def skipOptional (p q : Expr ι) : Expr ι := .binary .skipOptional p q

def alternate (p q : Expr ι) : Expr ι := .binary .alternate p q

def both (p q : Expr ι) : Expr ι := .binary .both p q

def token (p : Expr ι) : Expr ι := p.precedes (.prim .skipBlank)

def atEnd (p : Expr ι) : Expr ι := p.precedes (.prim .eof)

def void (p : Expr ι) : Expr ι := p.mapTo fun _ => .null

def asString (p : Expr ι) : Expr ι := p.map Value.joinText

/-- Match, or succeed with a default value without consuming anything. -/
def optional (p : Expr ι) (default : Value) : Expr ι := p.alternate (.prim (.succeed default))

def choice (ps : List (Expr ι)) : Expr ι :=
  ps.foldr alternate (.prim (.fail Parser.noAlternative))

def char (c : Char) : Expr ι := .prim (.char c)

def string (text : String) : Expr ι := .prim (.string text.toList)

end Expr
end Descent
