import Descent.ParseError
import Descent.Fault
import Descent.Value.Equality

/-!
# Examining outcomes

An examination starts from an outcome and applies operations to it, one after the other. Some
replace the outcome by their result, some only ask about it. An operation that faults leaves it as
it is. An outcome may be of neither kind: then it has no operations.
-/

namespace Descent

/-- Whether two outcomes are equal: successes by value and rest, failures by message alone. -/
def Outcome.same : Outcome Value → Outcome Value → Bool
  | .success v rest, .success w other => v.same w && rest = other
  | .failure f, .failure g => f.message = g.message
  | _, _ => false

/-- An outcome under examination, or `none` for one that is neither a success nor a failure. -/
abbrev Specimen := Option (Outcome Value)

/-- A computation of an outcome, which may turn out to be of neither kind. -/
abbrev Examine := OptionT (Except Fault)

namespace Specimen

/-- A result that is known to be an outcome. -/
def lift {α : Type} (result : Except Fault α) : Examine α :=
  OptionT.lift result

inductive Operation where
  | mapValue (f : Value → Except Fault Value)
  | mapFailure (f : String → Except Fault String)
  | flatMapSuccess (next : Value → Text → Except Fault Specimen)
  | flatMapFailure (next : String → Except Fault Specimen)
  | flatMapEither (onSuccess : Value → Text → Except Fault Specimen)
      (onFailure : String → Except Fault Specimen)
  | annotate (label : String) (left : Int)
  | deeper (other : Specimen)

inductive Question where
  | equals (other : Specimen)
  /-- Whether it equals a value, which no outcome does. -/
  | equalsValue (value : Value)
  | holds
  | error (source : Text)

inductive Step where
  | apply (operation : Operation)
  | ask (question : Question)
  | refused (fault : Fault)

inductive Finding where
  | specimen (specimen : Specimen)
  | truth (b : Bool)
  | parseError (error : ParseError)
  | fault (fault : Fault)
  deriving DecidableEq, Inhabited

def Operation.onOutcome (operation : Operation) (outcome : Outcome Value) :
    Except Fault Specimen :=
  match operation with
  | .mapValue f => (outcome.mapValue fun v => lift (f v)).run
  | .mapFailure f => (outcome.mapFailure fun s => lift (f s)).run
  | .flatMapSuccess next => (outcome.flatMapSuccess fun v rest => OptionT.mk (next v rest)).run
  | .flatMapFailure next => (outcome.flatMapFailure fun s => OptionT.mk (next s)).run
  | .flatMapEither onSuccess onFailure =>
    (outcome.flatMapEither (fun v rest => OptionT.mk (onSuccess v rest))
      (fun s => OptionT.mk (onFailure s))).run
  | .annotate label left => match outcome with
    | .failure f => .ok (some (.failure (f.annotate label left)))
    | .success _ _ => .error .typeMismatch
  | .deeper other => match outcome, other with
    | .failure f, some (.failure g) => .ok (some (.failure (f.deeper g)))
    | _, _ => .error .typeMismatch

def apply (specimen : Specimen) (operation : Operation) : Except Fault Specimen :=
  match specimen with
  | some outcome => operation.onOutcome outcome
  | none => .error .notImplemented

/-- Answer a question. An outcome of neither kind holds, and equals only itself. -/
def ask (specimen : Specimen) : Question → Finding
  | .equals other => match specimen, other with
    | some outcome, some other => .truth (outcome.same other)
    | _, _ => .truth false
  | .equalsValue _ => .truth false
  | .holds => .truth (specimen.all Outcome.isSuccess)
  | .error source => match specimen with
    | some (.failure f) => .parseError (f.error source)
    | some (.success _ _) => .fault .typeMismatch
    | none => .fault .notImplemented

/-- Do a step: what it shows, and the outcome afterwards. -/
def step (specimen : Specimen) : Step → Finding × Specimen
  | .apply operation => match specimen.apply operation with
    | .ok result => (.specimen result, result)
    | .error reason => (.fault reason, specimen)
  | .ask question => (specimen.ask question, specimen)
  | .refused reason => (.fault reason, specimen)

/-- What the steps show from a given outcome on. -/
def stepsFrom (specimen : Specimen) : List Step → List Finding
  | [] => []
  | first :: rest =>
    let (finding, specimen) := specimen.step first
    finding :: specimen.stepsFrom rest

/-- The outcome at the start, and what each step shows. -/
def examine (specimen : Specimen) (steps : List Step) : List Finding :=
  .specimen specimen :: specimen.stepsFrom steps

end Specimen
end Descent
