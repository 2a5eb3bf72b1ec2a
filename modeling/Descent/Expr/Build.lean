import Descent.Expr.Basic

/-!
# Building expressions

A grammar is written with names. Building it looks up the names that are to be known at once, and
gives every delayed reference that keeps what it finds a slot of its own. A slot is named by its
place: the number of the build and the way down to the reference. Parts are built from left to
right, and the first fault ends the building.

The parser that a function makes of a value is built when it is needed, each time from the start, so
its references have no slots, and a fault in it is thrown by the run.
-/

namespace Descent

/-- What a delayed reference means. -/
inductive Target where
  /-- The parser that has a name when the reference is entered. -/
  | named (name : String)
  /-- The innermost recursive parser around the reference; `origin` is shown in reports. -/
  | recursive (origin : String)
  deriving DecidableEq, Inhabited

def Target.origin : Target → String
  | .named name => "<thunk " ++ name ++ ">"
  | .recursive origin => origin

/-- A reference as a grammar writes it. -/
inductive Mention where
  /-- The parser that has a name now. -/
  | use (name : String)
  /-- A delayed reference that keeps the first parser it finds. -/
  | delayed (target : Target)
  /-- A delayed reference that is made anew each time it is entered. -/
  | anew (target : Target)
  | refused (fault : Fault)
  deriving Inhabited

/-- The place of a reference among all that was built. -/
abbrev Address := List Nat

structure Link where
  target : Target
  /-- Where the parser that was found is kept; none if the reference keeps nothing. -/
  slot : Option Address
  deriving DecidableEq, Inhabited

/-- The parsers that have names, the newest first. -/
abbrev Env := List (String × Expr Link)

namespace Env

def find? (env : Env) (name : String) : Option (Expr Link) :=
  env.lookup name

/-- Give a name to a parser, instead of the one that had it. -/
def define (env : Env) (name : String) (p : Expr Link) : Env :=
  (name, p) :: env

end Env

namespace Expr

/-- The primitive that a building step gives, or the fault of that step. -/
def ofExcept : Except Fault Primitive → Expr Mention
  | .ok p => .prim p
  | .error fault => .ref (.refused fault)

def orRaise : Except Fault (Expr Link) → Expr Link
  | .ok p => p
  | .error fault => .prim (.raise fault)

/-- Build a part of a grammar, which has no address if a function makes it. Operations on one parser
do not count in the address of its part, so a name or a trace around a reference does not move
it. -/
def buildPart (env : Env) (address : Option Address) : Expr Mention → Except Fault (Expr Link)
  | .prim p => .ok (.prim p)
  | .unary op p => return .unary op (← buildPart env address p)
  | .binary op p q =>
    return .binary op (← buildPart env (address.map (0 :: ·)) p)
      (← buildPart env (address.map (1 :: ·)) q)
  | .between p left right =>
    return .between (← buildPart env (address.map (0 :: ·)) p)
      (← buildPart env (address.map (1 :: ·)) left) (← buildPart env (address.map (2 :: ·)) right)
  | .flatMap p next =>
    return .flatMap (← buildPart env address p) fun value => orRaise (buildPart env none (next value))
  | .fix body => return .fix (← buildPart env address body)
  | .ref (.use name) => match env.find? name with
    | some p => .ok p
    | none => .error (.unknownName name)
  | .ref (.delayed target) => .ok (.ref ⟨target, address⟩)
  | .ref (.anew target) => .ok (.ref ⟨target, none⟩)
  | .ref (.refused fault) => .error fault

/-- Build a grammar. The whole of it is made a recursive parser, so that what its references mean
does not depend on where it is used later. -/
def build (env : Env) (number : Nat) (grammar : Expr Mention) : Except Fault (Expr Link) :=
  return .fix (← buildPart env (some [number]) grammar)

end Expr
end Descent
