import Descent.Session

/-!
# Equations of runs

What a run gives from a given memory: its result, and the memory that it leaves. Main statements:
how a run goes on after its first part, where a reference leads and what is kept and reported on the
way, and the report on a run in a session.
-/

namespace Descent

/-- What a reference leads to that is resolved now. -/
def Target.find (env : Env) (self : Expr Link) : Target → Except Fault (Expr Link)
  | .named name => match env.find? name with
    | some p => .ok p
    | none => .error (.unknownName name)
  | .recursive _ => .ok self

theorem eq_ok_of_toOption {α : Type} {x : Except Fault α} {a : α} (h : x.toOption = some a) :
    x = .ok a := by
  cases x with
  | error fault => cases h
  | ok b => exact congrArg Except.ok (Option.some.inj h)

namespace Run

/-- A run goes on with the value and the memory of its first part, and ends at its fault. -/
theorem run_bind {σ α β : Type} (x : ExceptT Fault (StateM σ) α)
    (next : α → ExceptT Fault (StateM σ) β) (memory : σ) :
    (x >>= next).run.run memory = match (x.run.run memory).1 with
      | .ok a => (next a).run.run (x.run.run memory).2
      | .error fault => (.error fault, (x.run.run memory).2) := by
  show (ExceptT.bindCont next (x.run.run memory).1).run (x.run.run memory).2 = _
  cases (x.run.run memory).1 with
  | ok a => rfl
  | error fault => rfl

theorem run_get_bind {α : Type} (next : Memory → Run α) (memory : Memory) :
    (get >>= next).run.run memory = (next memory).run.run memory := rfl

/-- A parser without a state leaves the memory as it is. -/
theorem run_lift {α : Type} (p : Parser (Except Fault) α) (text : Text) (memory : Memory) :
    ((p.lift (m := Run)) text).run.run memory = (p text, memory) := by
  unfold Parser.lift
  cases p text <;> rfl

variable {env : Env} {self : Expr Link} {link : Link} {memory : Memory}

theorem resolve_found {p : Expr Link} (found : link.slot.bind memory.find? = some p) :
    (resolve env self link).run.run memory = (.ok p, memory) := by
  unfold resolve
  rw [run_get_bind, found]
  rfl

theorem run_lookup (env : Env) (self : Expr Link) (target : Target) (memory : Memory) :
    (lookup env self target).run.run memory = (target.find env self, memory) := by
  cases target with
  | recursive origin => rfl
  | named name =>
    simp only [lookup, Target.find]
    cases env.find? name <;> rfl

/-- A reference that keeps nothing yet keeps what it finds, if it keeps anything, and reports that.
Where nothing is found, nothing happens. -/
theorem resolve_fresh (fresh : link.slot.bind memory.find? = none) :
    (resolve env self link).run.run memory = match link.target.find env self with
      | .ok p => (.ok p, (link.slot.elim memory fun slot => memory.bind slot p).report
          (.resolved link.target.origin))
      | .error fault => (.error fault, memory) := by
  unfold resolve
  rw [run_get_bind, fresh]
  simp only [run_bind, run_lookup]
  cases link.target.find env self with
  | error fault => rfl
  | ok p => cases link.slot <;> rfl

theorem resolve_recursive {origin : String} (fresh : link.slot.bind memory.find? = none)
    (target : link.target = .recursive origin) :
    (resolve env self link).run.run memory = (.ok self,
      (link.slot.elim memory fun slot => memory.bind slot self).report (.resolved origin)) := by
  rw [resolve_fresh fresh, target]
  rfl

end Run

theorem Memory.find?_bind (memory : Memory) (slot other : Address) (p : Expr Link) :
    (memory.bind slot p).find? other = if other = slot then some p else memory.find? other := by
  by_cases here : other = slot
  · simp only [find?, bind, List.lookup_cons, here, BEq.rfl, ↓reduceIte]
  · have apart : (other == slot) = false := by simpa using here
    simp only [find?, bind, List.lookup_cons, apart, here, ↓reduceIte]

namespace Run

variable (env : Env) (self : Expr Link) (link : Link) (memory : Memory)

/-- A reference leads to what is kept for it, or else to what it means now. -/
theorem resolve_result :
    ((resolve env self link).run.run memory).1 = match link.slot.bind memory.find? with
      | some p => .ok p
      | none => link.target.find env self := by
  cases kept : link.slot.bind memory.find? with
  | some p => rw [resolve_found kept]
  | none =>
    rw [resolve_fresh kept]
    cases link.target.find env self <;> rfl

/-- Resolving fills the slot of the reference, if that is empty and something is found. -/
theorem resolve_find? (slot : Address) :
    ((resolve env self link).run.run memory).2.find? slot = if link.slot = some slot
      then (memory.find? slot).or (link.target.find env self).toOption
      else memory.find? slot := by
  cases kept : link.slot.bind memory.find? with
  | some p =>
    rw [resolve_found kept]
    split
    · next here =>
      rw [here, Option.bind_some] at kept
      rw [kept, Option.some_or]
    · rfl
  | none =>
    rw [resolve_fresh kept]
    cases found : link.target.find env self with
    | error fault =>
      show memory.find? slot = _
      split
      · exact Option.or_none.symm
      · rfl
    | ok p =>
      cases here : link.slot with
      | none => rfl
      | some own =>
        rw [here, Option.bind_some] at kept
        show (memory.bind own p).find? slot = _
        rw [Memory.find?_bind]
        by_cases same : slot = own
        · subst same
          simp only [↓reduceIte, kept]
          rfl
        · have apart : ¬some own = some slot := fun equal => same (Option.some.inj equal).symm
          simp only [same, apart, ↓reduceIte]

/-- Resolving reports nothing on traced parsers. -/
theorem resolve_traces :
    ((resolve env self link).run.run memory).2.log.filter Event.isTrace
      = memory.log.filter Event.isTrace := by
  cases kept : link.slot.bind memory.find? with
  | some p => rw [resolve_found kept]
  | none =>
    rw [resolve_fresh kept]
    cases link.target.find env self with
    | error fault => rfl
    | ok p => cases link.slot <;> rfl

end Run

theorem Answer.ofRun_eq_outcome {text : Text} {result : Except Fault (Outcome Value)}
    {outcome : Outcome Value} :
    Answer.ofRun .parse text result = .outcome outcome ↔ result = .ok outcome := by
  cases result <;> simp [ofRun]

theorem Answer.ofRun_eq_fault {mode : Mode} {text : Text} {result : Except Fault (Outcome Value)}
    {fault : Fault} (answer : Answer.ofRun mode text result = .fault fault) :
    result = .error fault := by
  cases result with
  | error reason =>
    cases answer
    rfl
  | ok outcome =>
    unfold ofRun at answer
    cases mode with
    | parse => cases answer
    | run => cases ran : outcome.toExcept text <;> simp [ran] at answer

namespace Session

def ran (session : Session) (p : Expr Link) (text : Text) :
    Except Fault (Outcome Value) × Memory :=
  (Run.enter session.env (Run.depthFor session.builds text) p text).run.run session.memory

theorem parse_fst (session : Session) (p : Expr Link) (text : Text) :
    (session.parse p text).1 = (session.ran p text).1 := rfl

theorem report_eq (session : Session) (mode : Mode) (p : Expr Link) (text : Text) :
    session.report mode p text =
      (⟨.ofRun mode text (session.ran p text).1, (session.ran p text).2.log.reverse⟩,
        { session with memory := { (session.ran p text).2 with log := [] } }) := rfl

end Session
end Descent
