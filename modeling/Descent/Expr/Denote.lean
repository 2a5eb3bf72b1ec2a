import Descent.Event
import Descent.Expr.Basic

/-!
# What expressions mean

An expression stands for a parser, by recursion on its parts. Only references, names given by
values, and traces need more than that; a host provides for them.
-/

namespace Descent

/-- What running expressions needs from outside. -/
structure Host (ι : Type) (m : Type → Type) where
  /-- Run what a reference means inside the recursive parser `self`. -/
  follow (self : Expr ι) (r : ι) : Parser m Value
  /-- Run the parser that a value names. -/
  find (name : Value) : Parser m Value
  emit (event : Event) : m Unit

namespace Expr

variable {m : Type → Type} [Monad m] [MonadExceptOf Fault m] {ι : Type}

def traced (emit : Event → m Unit) (label : String) (p : Parser m Value) : Parser m Value :=
  fun text => do
    let outcome ← p text
    match outcome with
    | .success value rest => emit (.matched label value rest.length)
    | .failure f => emit (.failed label text f.message)
    return outcome

def repeated (p : Parser m Value) (count : Value) : Parser m Value :=
  match count.toInt? with
  | some n => (p.times n.toNat).map .list
  | none => fun _ => throw .typeMismatch

def denoteUnary (host : Host ι m) (op : Unary) (p : Parser m Value) : Parser m Value :=
  match op with
  | .map f => p.mapM fun value => MonadExcept.ofExcept (f value)
  | .bind next => p.flatMap fun value => (next value).parse.lift
  | .dispatch => p.flatMap host.find
  | .many => p.many.map .list
  | .many1 => p.many1.map .list
  | .lookahead => p.lookahead
  | .notFollowedBy => p.notFollowedBy.map fun _ => .null
  | .name label => p.name label
  | .trace label => traced host.emit label p

def denoteBinary (op : Binary) (p q : Parser m Value) : Parser m Value :=
  match op with
  | .andThen => p.andThen q
  | .precedes => p.precedes q
  | .skipOptional => p.skipOptional q
  | .alternate => p.alternate q
  | .sepBy => (p.sepBy q).map .list
  | .surroundedBy => p.surroundedBy q
  | .both => p.flatMap fun first => q.map fun second => .pair first second
  | .times => p.flatMap (repeated q)

/-- The parser that an expression stands for inside the recursive parser `self`. -/
def denote (host : Host ι m) (self : Expr ι) : Expr ι → Parser m Value
  | .prim p => p.parse.lift
  | .unary op p => denoteUnary host op (denote host self p)
  | .binary op p q => denoteBinary op (denote host self p) (denote host self q)
  | .between p left right =>
    (denote host self p).between (denote host self left) (denote host self right)
  | .flatMap p next => (denote host self p).flatMap fun value => denote host self (next value)
  | .fix body => denote host (.fix body) body
  | .ref r => host.follow self r

end Expr
end Descent
