import Descent.Proofs.Places
import Descent.Proofs.SelfContained

/-!
# Using a parser again

A parser may run on many texts, one after the other, and references keep what they find on the way.
Main statement: each run answers as if it were the first one of a parser that was just built, and
reports the same outcomes of traced parsers. Only the resolution of references is reported once.

While no parser is built, names mean the same all the time. So whatever a slot keeps is what
resolving its place again would find. This holds at the start, and every step of a run keeps it up,
the steps of a run that ends in a fault too.
-/

namespace Descent

/-! ## Memories -/

namespace Memory

/-- The outcomes of traced parsers that were reported. -/
def traces (memory : Memory) : List Event := memory.log.filter Event.isTrace

/-- What a slot keeps is what resolving its place now would find. -/
def Faithful (env : Env) (known : Set (Place Link)) (memory : Memory) : Prop :=
  ∀ place ∈ known, ∀ slot ∈ place.ref.slot, ∀ p, memory.find? slot = some p →
    place.ref.target.find env place.self = .ok p

variable {env : Env} {known : Set (Place Link)} {memory : Memory} {place : Place Link}

theorem faithful_empty (env : Env) (known : Set (Place Link)) : empty.Faithful env known := by
  intro place _ slot _ p kept
  cases kept

/-- Resolving finds the same in every such memory. -/
theorem Faithful.result (faithful : memory.Faithful env known) (inside : place ∈ known) :
    ((Run.resolve env place.self place.ref).run.run memory).1
      = place.ref.target.find env place.self := by
  rw [Run.resolve_result]
  cases kept : place.ref.slot.bind memory.find? with
  | none => rfl
  | some p =>
    obtain ⟨slot, here, keeps⟩ := Option.bind_eq_some_iff.mp kept
    exact (faithful place inside slot here p keeps).symm

theorem Faithful.resolve (faithful : memory.Faithful env known) (distinct : Place.Distinct known)
    (inside : place ∈ known) :
    ((Run.resolve env place.self place.ref).run.run memory).2.Faithful env known := by
  intro other inside' slot here p kept
  rw [Run.resolve_find?] at kept
  split at kept
  · next own =>
    obtain rfl := (distinct place inside other inside').resolve_right fun apart =>
      apart slot own here
    rcases Option.or_eq_some_iff.mp kept with old | ⟨-, new⟩
    · exact faithful place inside slot here p old
    · exact eq_ok_of_toOption new
  · exact faithful other inside' slot here p kept

/-- Two memories that differ in what was resolved, and in the reports on that. -/
structure Alike (env : Env) (known : Set (Place Link)) (memory memory' : Memory) : Prop where
  left : memory.Faithful env known
  right : memory'.Faithful env known
  traces : memory.traces = memory'.traces

end Memory

/-! ## Runs -/

namespace Session.Tracks

open Comparison

variable {session : Session} {known : Set (Place Link)} {bound : Nat}

theorem find_within (tracks : session.Tracks known) {place : Place Link} (inside : place ∈ known)
    {p : Expr Link} (found : place.ref.target.find session.env place.self = .ok p) :
    p.Within known := by
  cases target : place.ref.target with
  | recursive origin =>
    rw [target] at found
    cases found
    exact tracks.closed place inside
  | named name =>
    simp only [target, Target.find] at found
    cases bound : session.env.find? name with
    | none =>
      rw [bound] at found
      cases found
    | some q =>
      rw [bound] at found
      cases found
      exact tracks.named name _ bound

theorem rel_resolve (tracks : session.Tracks known) {place : Place Link} (inside : place ∈ known) :
    (run (Memory.Alike session.env known)).Rel (fun p p' => p = p' ∧ p.Within known)
      (Run.resolve session.env place.self place.ref)
      (Run.resolve session.env place.self place.ref) := by
  intro memory memory' alike
  have traces := (Run.resolve_traces session.env place.self place.ref memory).trans alike.traces
  have traces' := Run.resolve_traces session.env place.self place.ref memory'
  refine ⟨?_, alike.left.resolve tracks.distinct inside,
    alike.right.resolve tracks.distinct inside, traces.trans traces'.symm⟩
  rw [alike.left.result inside, alike.right.result inside]
  cases found : place.ref.target.find session.env place.self with
  | error fault => exact .error trivial
  | ok p => exact .ok ⟨rfl, tracks.find_within inside found⟩

theorem rel_emit (event : Event) :
    (run (Memory.Alike session.env known)).Rel Eq (Run.emit event) (Run.emit event) := by
  intro memory memory' alike
  refine ⟨.ok rfl, alike.left, alike.right, ?_⟩
  show (event :: memory.log).filter Event.isTrace = (event :: memory'.log).filter Event.isTrace
  have traces : memory.log.filter Event.isTrace = memory'.log.filter Event.isTrace := alike.traces
  simp only [List.filter_cons, traces]

theorem similar_enter (tracks : session.Tracks known) (depth : Nat) {p : Expr Link}
    (within : p.Within known) :
    (run (Memory.Alike session.env known)).Similar .same bound 0
      (Run.enter session.env depth p) (Run.enter session.env depth p) := by
  induction depth generalizing p with
  | zero => exact fun text _ => (run _).rel_throw trivial
  | succ depth ih =>
    have entered (name : String) (p : Expr Link) (found : session.env.find? name = some p) :=
      ih (tracks.named name p found)
    refine Similar.denote_same (fun _ => trivial) (Similar.named_same (fun _ => trivial) entered)
      rel_emit ?_ (within p)
    intro place inside text short
    refine (run _).rel_bind (tracks.rel_resolve inside) ?_
    rintro p _ ⟨rfl, within⟩
    exact ih within text short

end Session.Tracks

/-! ## Sessions -/

/-- A report without the resolution of references. -/
def Report.withoutResolutions (report : Report) : Report :=
  { report with log := report.log.filter Event.isTrace }

namespace Session

theorem build_memory {session after : Session} {grammar : Expr Mention} {p : Expr Link}
    (done : session.build grammar = .ok (p, after)) : after.memory = session.memory := by
  obtain ⟨_, -, -, rfl⟩ := build_eq_ok done
  rfl

theorem define_memory {session after : Session} {name : String} {grammar : Expr Mention}
    (done : session.define name grammar = .ok after) : after.memory = session.memory := by
  obtain ⟨p, middle, built, rfl⟩ := define_eq_ok done
  have unused : middle.memory = session.memory := build_memory built
  exact unused

theorem Tracks.definitions {session after : Session} {known : Set (Place Link)}
    (tracks : session.Tracks known) {definitions : List (String × Expr Mention)}
    (done : definitions.foldlM (fun session d => session.define d.1 d.2) session = .ok after) :
    (∃ more, after.Tracks more) ∧ after.memory = session.memory := by
  induction definitions generalizing session known with
  | nil =>
    cases done
    exact ⟨⟨known, tracks⟩, rfl⟩
  | cons definition definitions ih =>
    obtain ⟨middle, defined, done⟩ := Parser.bind_eq_ok.mp done
    obtain ⟨more, -, tracks⟩ := tracks.define defined
    obtain ⟨tracked, memory⟩ := ih tracks done
    exact ⟨tracked, memory.trans (define_memory defined)⟩

variable {session : Session} {known : Set (Place Link)} {p : Expr Link}

/-- A run answers and traces as it does from an empty memory, and leaves a memory like it found. -/
theorem report_again (tracks : session.Tracks known) (within : p.Within known) (mode : Mode)
    {memory : Memory} (faithful : memory.Faithful session.env known) (clear : memory.log = [])
    (text : Text) :
    let again := { session with memory := memory }
    let fresh := { session with memory := .empty }
    (again.report mode p text).1.withoutResolutions
        = (fresh.report mode p text).1.withoutResolutions ∧
      ∃ after : Memory, (again.report mode p text).2 = { session with memory := after } ∧
        after.Faithful session.env known ∧ after.log = [] := by
  intro again fresh
  have alike : Memory.Alike session.env known memory .empty :=
    ⟨faithful, Memory.faithful_empty _ _, by simp only [Memory.traces, clear, Memory.empty]⟩
  obtain ⟨results, alike⟩ := tracks.similar_enter (Run.depthFor session.builds text) within text
    (Nat.lt_succ_self _) memory .empty alike
  have result : (again.ran p text).1 = (fresh.ran p text).1 := results.eq_of_same
  have traces : (again.ran p text).2.traces = (fresh.ran p text).2.traces := alike.traces
  rw [report_eq, report_eq]
  refine ⟨?_, _, rfl, alike.left, rfl⟩
  simp only [Report.withoutResolutions, List.filter_reverse, result]
  exact congrArg (fun log => Report.mk _ log.reverse) traces

theorem reports_again (tracks : session.Tracks known) (within : p.Within known) (mode : Mode)
    (texts : List Text) {memory : Memory} (faithful : memory.Faithful session.env known)
    (clear : memory.log = []) :
    (reports { session with memory := memory } mode p texts).map Report.withoutResolutions
      = texts.map fun text =>
        (report { session with memory := .empty } mode p text).1.withoutResolutions := by
  induction texts generalizing memory with
  | nil => rfl
  | cons text texts ih =>
    obtain ⟨first, after, left, faithful, clear⟩ :=
      report_again tracks within mode faithful clear text
    simp only [reports, List.map_cons, first, left, ih faithful clear]

/-- Building definitions and a parser ends in a fault on all texts, or every text has a report of its
own: that of a single run of a new build. Whatever texts the parser runs on, and in which order, the
report on each of them is the same, up to the resolution of references. -/
theorem batch_independent (definitions : List (String × Expr Mention)) (grammar : Expr Mention)
    (mode : Mode) :
    (∃ fault, ∀ texts, batch definitions grammar mode texts = .error fault) ∨
    ∃ alone : Text → Report,
      (∀ text, batch definitions grammar mode [text] = .ok [alone text]) ∧
      ∀ texts, ∃ reports, batch definitions grammar mode texts = .ok reports ∧
        reports.map Report.withoutResolutions
          = texts.map fun text => (alone text).withoutResolutions := by
  cases defined : definitions.foldlM (fun session d => session.define d.1 d.2) empty with
  | error fault =>
    refine .inl ⟨fault, fun texts => ?_⟩
    rw [batch, defined]
    rfl
  | ok session =>
    cases built : session.build grammar with
    | error fault =>
      refine .inl ⟨fault, fun texts => ?_⟩
      have whole := congrArg (· >>= fun made => pure (made.2.reports mode made.1 texts)) built
      rw [batch, defined]
      exact whole
    | ok made =>
      obtain ⟨p, last⟩ := made
      have done (texts : List Text) :
          batch definitions grammar mode texts = .ok (last.reports mode p texts) :=
        Parser.bind_eq_ok.mpr ⟨session, defined, Parser.bind_eq_ok.mpr ⟨(p, last), built, rfl⟩⟩
      obtain ⟨⟨known, tracks⟩, memory⟩ := tracks_empty.definitions defined
      obtain ⟨more, -, tracks, within⟩ := tracks.build built
      have unused : last.memory = .empty := (build_memory built).trans memory
      have fresh : last = { last with memory := .empty } := by rw [← unused]
      refine .inr ⟨fun text => (last.report mode p text).1, fun text => done [text], fun texts =>
        ⟨_, done texts, ?_⟩⟩
      rw [fresh]
      exact reports_again tracks within mode texts (Memory.faithful_empty _ _) rfl

end Session
end Descent
