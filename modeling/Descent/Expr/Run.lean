import Descent.Expr.Build
import Descent.Expr.Denote

/-!
# Running built expressions

A run carries a memory: the parsers that delayed references have found, and the events reported so
far. The memory outlives a fault.

Entering a reference starts another expression, so the number of references that are entered inside
one another is bounded by an explicit depth. A grammar that enters the same parser again at the same
place would do so for ever; every other one stays within `depthFor`, because at one place it enters
each parser that was built at most once, and a recursive part of one only as the first.
-/

namespace Descent

structure Memory where
  /-- The parsers that delayed references keep, by their slots. -/
  bound : List (Address × Expr Link)
  /-- The events, newest first. -/
  log : List Event
  deriving Inhabited

namespace Memory

def empty : Memory := ⟨[], []⟩

def find? (memory : Memory) (slot : Address) : Option (Expr Link) :=
  memory.bound.lookup slot

def bind (memory : Memory) (slot : Address) (p : Expr Link) : Memory :=
  { memory with bound := (slot, p) :: memory.bound }

def report (memory : Memory) (event : Event) : Memory :=
  { memory with log := event :: memory.log }

end Memory

/-- A computation that can throw a fault and has a memory that outlives it. -/
abbrev Run := ExceptT Fault (StateM Memory)

namespace Run

def emit (event : Event) : Run Unit :=
  modify fun memory => memory.report event

def lookup (env : Env) (self : Expr Link) : Target → Run (Expr Link)
  | .named name => match env.find? name with
    | some p => pure p
    | none => throw (.unknownName name)
  | .recursive _ => pure self

/-- The parser that a reference leads to. What a delayed reference finds is kept and reported
before it runs; where nothing is found, nothing is kept. -/
def resolve (env : Env) (self : Expr Link) (link : Link) : Run (Expr Link) := do
  match link.slot.bind (← get).find? with
  | some p => return p
  | none =>
    let p ← lookup env self link.target
    if let some slot := link.slot then modify fun memory => memory.bind slot p
    emit (.resolved link.target.origin)
    return p

/-- The parser named by a value, or one that fails. Only values that may be keys can be looked
up. -/
def named {m : Type → Type} [Monad m] [MonadExceptOf Fault m] (env : Env)
    (enter : Expr Link → Parser m Value) (name : Value) : Parser m Value :=
  if name.isKey then
    match name.toText?.bind fun text => env.find? (String.ofList text) with
    | some p => enter p
    | none => Parser.fail ("no parser " ++ name.literal)
  else fun _ => throw .typeMismatch

def host (env : Env) (enter : Expr Link → Parser Run Value) : Host Link Run where
  follow self link text := do enter (← resolve env self link) text
  find := named env enter
  emit := emit

/-- Run an expression, entering at most `depth` expressions inside one another. -/
def enter (env : Env) : Nat → Expr Link → Parser Run Value
  | 0, _ => fun _ => throw .tooDeep
  | depth + 1, p => Expr.denote (host env (enter env depth)) p p

/-- The depth that is enough for a text where `builds` parsers have been built. -/
def depthFor (builds : Nat) (text : Text) : Nat :=
  (builds + 1) * (text.length + 1)

end Run
end Descent
