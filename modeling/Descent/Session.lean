import Descent.Expr.Run
import Descent.ParseError

/-!
# Sessions

A session keeps parsers under names, builds new ones, and runs them on texts. Delayed references
look names up in the session at the time they are entered, and keep what they find for as long as
the session lasts. A step that faults changes nothing but that memory.
-/

namespace Descent

/-- The parsers that have names, and what earlier runs have left. -/
structure Session where
  env : Env
  /-- How many parsers have been built. -/
  builds : Nat
  memory : Memory
  deriving Inhabited

inductive Answer where
  | built (name : String)
  | outcome (outcome : Outcome Value)
  | value (value : Value)
  | parseError (error : ParseError)
  | fault (fault : Fault)
  deriving DecidableEq, Inhabited

/-- An answer, with the events that were reported on the way to it, in order. -/
structure Report where
  answer : Answer
  log : List Event
  deriving DecidableEq, Inhabited

/-- What to answer of a run: the outcome as it is, or the value alone, and for a failure its
error. -/
inductive Mode where
  | parse
  | run
  deriving DecidableEq, Inhabited

def Answer.ofRun (mode : Mode) (text : Text) : Except Fault (Outcome Value) → Answer
  | .error reason => .fault reason
  | .ok result => match mode with
    | .parse => .outcome result
    | .run => match result.toExcept text with
      | .ok v => .value v
      | .error e => .parseError e

namespace Session

def empty : Session := ⟨[], 0, .empty⟩

def build (session : Session) (grammar : Expr Mention) : Except Fault (Expr Link × Session) := do
  let p ← grammar.build session.env session.builds
  return (p, { session with builds := session.builds + 1 })

def define (session : Session) (name : String) (grammar : Expr Mention) :
    Except Fault Session := do
  let (p, session) ← session.build grammar
  return { session with env := session.env.define name p }

/-- Run a parser on a text: its result, the events in order, and the session afterwards. -/
def parse (session : Session) (p : Expr Link) (text : Text) :
    Except Fault (Outcome Value) × List Event × Session :=
  let depth := Run.depthFor session.builds text
  let (result, memory) := (Run.enter session.env depth p text).run.run session.memory
  (result, memory.log.reverse, { session with memory := { memory with log := [] } })

def report (session : Session) (mode : Mode) (p : Expr Link) (text : Text) : Report × Session :=
  let (result, log, session) := session.parse p text
  (⟨.ofRun mode text result, log⟩, session)

def reports (session : Session) (mode : Mode) (p : Expr Link) : List Text → List Report
  | [] => []
  | text :: texts =>
    let (first, session) := session.report mode p text
    first :: session.reports mode p texts

end Session

/-! ## Steps -/

inductive Session.Step where
  | build (name : String) (grammar : Expr Mention)
  | run (mode : Mode) (name : String) (text : Text)

namespace Session

def step (session : Session) : Step → Report × Session
  | .build name grammar => match session.define name grammar with
    | .ok session => (⟨.built name, []⟩, session)
    | .error fault => (⟨.fault fault, []⟩, session)
  | .run mode name text => match session.env.find? name with
    | some p => session.report mode p text
    | none => (⟨.fault (.unknownName name), []⟩, session)

def steps (session : Session) : List Step → List Report
  | [] => []
  | first :: rest =>
    let (report, session) := session.step first
    report :: session.steps rest

/-- Build definitions and a parser in a new session, and run the parser on several texts. -/
def batch (definitions : List (String × Expr Mention)) (grammar : Expr Mention) (mode : Mode)
    (texts : List Text) : Except Fault (List Report) := do
  let session ← definitions.foldlM (fun session d => session.define d.1 d.2) empty
  let (p, session) ← session.build grammar
  return session.reports mode p texts

end Session
end Descent
