import Descent.Proofs.Reuse

/-!
# When delayed references are bound

Runs are watched here: every run of a reference is written down, with all that it starts from.
Watching changes nothing. Main statement: over any steps of a session, a delayed reference to a name
is bound by the first of its runs at which the name stands for something, to the parser that the name
stands for at that moment, and it stays bound to that parser.

What carries the proof is that a memory can be read off the runs of references so far. A slot keeps
what the first of the runs with that slot found, of those that found anything.
-/

namespace Descent

/-! ## Watched runs -/

/-- What a run of a reference starts from. -/
structure Visit where
  env : Env
  /-- How many expressions may still be entered inside one another. -/
  depth : Nat
  self : Expr Link
  link : Link
  text : Text
  memory : Memory

namespace Visit

/-- The result of the run, and the memory that it leaves. -/
def ended (visit : Visit) : Except Fault (Outcome Value) × Memory :=
  ((Run.host visit.env (Run.enter visit.env visit.depth)).follow visit.self visit.link
    visit.text).run.run visit.memory

def place (visit : Visit) : Place Link := ⟨visit.link, visit.self⟩

/-- The parser that the reference leads to, and the memory in which that is run. -/
def resolved (visit : Visit) : Except Fault (Expr Link) × Memory :=
  (Run.resolve visit.env visit.self visit.link).run.run visit.memory

def found (visit : Visit) : Except Fault (Expr Link) :=
  visit.link.target.find visit.env visit.self

end Visit

/-- A run that writes down the runs of references in it, in order. -/
abbrev Watch := ExceptT Fault (StateM (Memory × List Visit))

namespace Watch

def emit (event : Event) : Watch Unit :=
  modify fun state => (state.1.report event, state.2)

/-- Resolve a reference, and write down that it is run. -/
def resolve (env : Env) (depth : Nat) (self : Expr Link) (link : Link) (text : Text) :
    Watch (Expr Link) :=
  ExceptT.mk fun state =>
    let (result, memory) := (Run.resolve env self link).run.run state.1
    (result, memory, state.2 ++ [⟨env, depth, self, link, text, state.1⟩])

def host (env : Env) (depth : Nat) (enter : Expr Link → Parser Watch Value) : Host Link Watch where
  follow self link text := do enter (← resolve env depth self link text) text
  find := Run.named env enter
  emit := emit

def enter (env : Env) : Nat → Expr Link → Parser Watch Value
  | 0, _ => fun _ => throw .tooDeep
  | depth + 1, p => Expr.denote (host env depth (enter env depth)) p p

end Watch

/-- A watched run does what a run does, and a property of the memory and of the runs of references
so far is kept up. -/
def Comparison.watching (holds : Memory → List Visit → Prop) : Comparison Watch Run where
  Rel V x y := ∀ memory visits, holds memory visits →
    Results (fun _ => True) V (x.run.run (memory, visits)).1 (y.run.run memory).1 ∧
      (x.run.run (memory, visits)).2.1 = (y.run.run memory).2 ∧
      holds (x.run.run (memory, visits)).2.1 (x.run.run (memory, visits)).2.2
  Admits _ := True
  rel_pure h _ _ kept := ⟨.ok h, rfl, kept⟩
  rel_bind := by
    intro α β V W x y f g h next memory visits kept
    obtain ⟨results, same, kept⟩ := h memory visits kept
    rw [Run.run_bind, Run.run_bind, ← same]
    generalize (x.run.run (memory, visits)).1 = result at results
    generalize (y.run.run memory).1 = result' at results
    cases results with
    | ok values => exact next _ _ values _ _ kept
    | error admitted => exact ⟨.error admitted, rfl, kept⟩
  rel_mono weaken h memory visits kept :=
    ⟨(h memory visits kept).1.mono weaken, (h memory visits kept).2⟩
  rel_throw admitted _ _ kept := ⟨.error admitted, rfl, kept⟩

namespace Watch

open Comparison

/-- What a property needs to be kept up by watched runs of parsers whose places are known. -/
structure Upholds (env : Env) (known : Set (Place Link)) (holds : Memory → List Visit → Prop) :
    Prop where
  named : ∀ name p, env.find? name = some p → p.Within known
  report : ∀ event memory visits, holds memory visits → holds (memory.report event) visits
  visit : ∀ visit : Visit, visit.env = env → visit.place ∈ known → ∀ visits,
    holds visit.memory visits → (∀ p, visit.resolved.1 = .ok p → p.Within known) ∧
      holds visit.resolved.2 (visits ++ [visit])

variable {env : Env} {known : Set (Place Link)} {holds : Memory → List Visit → Prop} {bound : Nat}

theorem rel_resolve (upholds : Upholds env known holds) {place : Place Link} (inside : place ∈ known)
    (depth : Nat) (text : Text) :
    (watching holds).Rel (fun p p' => p = p' ∧ p.Within known)
      (resolve env depth place.self place.ref text) (Run.resolve env place.self place.ref) := by
  intro memory visits kept
  let started : Visit := ⟨env, depth, place.self, place.ref, text, memory⟩
  obtain ⟨within, kept⟩ := upholds.visit started rfl inside visits kept
  refine ⟨?_, rfl, kept⟩
  show Results _ _ started.resolved.1 started.resolved.1
  cases result : started.resolved.1 with
  | error fault => exact .error trivial
  | ok p => exact .ok ⟨rfl, within p result⟩

theorem similar_enter (upholds : Upholds env known holds) (depth : Nat) {p : Expr Link}
    (within : p.Within known) :
    (watching holds).Similar .same bound 0 (Watch.enter env depth p) (Run.enter env depth p) := by
  induction depth generalizing p with
  | zero => exact fun text _ => (watching holds).rel_throw trivial
  | succ depth ih =>
    have emits (event : Event) : (watching holds).Rel Eq (emit event) (Run.emit event) :=
      fun memory visits kept => ⟨.ok rfl, rfl, upholds.report event memory visits kept⟩
    have entered (name : String) (p : Expr Link) (found : env.find? name = some p) :=
      ih (upholds.named name p found)
    refine Similar.denote_same (fun _ => trivial) (Similar.named_same (fun _ => trivial) entered)
      emits ?_ (within p)
    intro place inside text short
    refine (watching holds).rel_bind (rel_resolve upholds inside depth text) ?_
    rintro p _ ⟨rfl, within⟩
    exact ih within text short

end Watch

namespace Visit

def watched (visit : Visit) (visits : List Visit) :
    Except Fault (Outcome Value) × Memory × List Visit :=
  ((Watch.host visit.env visit.depth (Watch.enter visit.env visit.depth)).follow visit.self
    visit.link visit.text).run.run (visit.memory, visits)

end Visit

/-! ## Reading a memory off the runs of references -/

namespace Visit

/-- What the first of the runs with a slot found, of those that found anything. -/
def binding (slot : Address) (visits : List Visit) : Option (Expr Link) :=
  visits.findSome? fun visit => if visit.link.slot = some slot then visit.found.toOption else none

theorem binding_concat (slot : Address) (visits : List Visit) (visit : Visit) :
    binding slot (visits ++ [visit]) = if visit.link.slot = some slot
      then (binding slot visits).or visit.found.toOption else binding slot visits := by
  simp only [binding, List.findSome?_append, List.findSome?_singleton]
  split
  · rfl
  · exact Option.or_none

end Visit

def Memory.Recalls (memory : Memory) (visits : List Visit) : Prop :=
  ∀ slot, memory.find? slot = Visit.binding slot visits

theorem Memory.Recalls.resolved {visit : Visit} {visits : List Visit}
    (recalls : visit.memory.Recalls visits) : visit.resolved.2.Recalls (visits ++ [visit]) := by
  intro slot
  rw [Visit.binding_concat, ← recalls slot]
  exact Run.resolve_find? visit.env visit.self visit.link visit.memory slot

/-- The runs of references so far, of places that are known, in the order that the memory recalls. -/
structure Watch.Records (known : Set (Place Link)) (memory : Memory) (visits : List Visit) : Prop where
  recalls : memory.Recalls visits
  started : ∀ before visit after, visits = before ++ visit :: after → visit.memory.Recalls before
  places : ∀ visit ∈ visits, visit.place ∈ known
  within : ∀ slot p, memory.find? slot = some p → p.Within known

namespace Watch

variable {known : Set (Place Link)} {memory : Memory} {visits : List Visit}

theorem records_empty : Records ∅ .empty [] where
  recalls _ := rfl
  started before visit after none := by
    have length := congrArg List.length none
    simp at length
  places := nofun
  within := nofun

theorem Records.mono {more : Set (Place Link)} (records : Records known memory visits)
    (sub : known ⊆ more) : Records more memory visits where
  recalls := records.recalls
  started := records.started
  places visit inside := sub (records.places visit inside)
  within slot p kept := (records.within slot p kept).mono sub

theorem started_concat {visit : Visit} (recalls : visit.memory.Recalls visits)
    (started : ∀ before other after, visits = before ++ other :: after → other.memory.Recalls before)
    {before after : List Visit} {other : Visit} (same : visits ++ [visit] = before ++ other :: after) :
    other.memory.Recalls before := by
  rcases List.eq_nil_or_concat after with rfl | ⟨tail, last, rfl⟩
  · obtain ⟨rfl, single⟩ := List.append_inj' same rfl
    obtain rfl := (List.cons.inj single).1
    exact recalls
  · have split : visits ++ [visit] = (before ++ other :: tail) ++ [last] := by simpa using same
    exact started before other tail (List.append_inj' split rfl).1

/-- What a reference leads to was kept, or is what it means now. -/
theorem within_of_resolved {visit : Visit}
    (kept : ∀ slot p, visit.memory.find? slot = some p → p.Within known)
    (found : ∀ p, visit.found = .ok p → p.Within known) :
    (∀ p, visit.resolved.1 = .ok p → p.Within known) ∧
      ∀ slot p, visit.resolved.2.find? slot = some p → p.Within known := by
  constructor
  · intro p result
    rw [Visit.resolved, Run.resolve_result] at result
    cases keeps : visit.link.slot.bind visit.memory.find? with
    | none =>
      rw [keeps] at result
      exact found p result
    | some q =>
      rw [keeps] at result
      cases result
      obtain ⟨slot, -, keeps⟩ := Option.bind_eq_some_iff.mp keeps
      exact kept slot p keeps
  · intro slot p keeps
    rw [Visit.resolved, Run.resolve_find?] at keeps
    split at keeps
    · rcases Option.or_eq_some_iff.mp keeps with old | ⟨-, new⟩
      · exact kept slot p old
      · exact found p (eq_ok_of_toOption new)
    · exact kept slot p keeps

theorem upholds_records {session : Session} (tracks : session.Tracks known) :
    Upholds session.env known (Records known) where
  named := tracks.named
  report _ _ _ records := ⟨records.recalls, records.started, records.places, records.within⟩
  visit := by
    intro visit here inside visits records
    have found (p : Expr Link) (means : visit.found = .ok p) : p.Within known := by
      rw [Visit.found, here] at means
      exact tracks.find_within inside means
    obtain ⟨result, kept⟩ := within_of_resolved records.within found
    refine ⟨result, records.recalls.resolved, fun _ _ _ => started_concat records.recalls
      records.started, fun other listed => ?_, kept⟩
    rcases List.mem_append.mp listed with old | new
    · exact records.places other old
    · rw [List.mem_singleton.mp new]
      exact inside

end Watch

/-! ## Sessions -/

namespace Session

def watched (session : Session) (visits : List Visit) (p : Expr Link) (text : Text) :
    Except Fault (Outcome Value) × Memory × List Visit :=
  (Watch.enter session.env (Run.depthFor session.builds text) p text).run.run
    (session.memory, visits)

def after (session : Session) : List Step → Session
  | [] => session
  | first :: rest => (session.step first).2.after rest

def visited (session : Session) (visits : List Visit) : Step → List Visit
  | .build _ _ => visits
  | .run _ name text => match session.env.find? name with
    | some p => (session.watched visits p text).2.2
    | none => visits

/-- The runs of references in some steps, after earlier ones. -/
def history (session : Session) (visits : List Visit) : List Step → List Visit
  | [] => visits
  | first :: rest => (session.step first).2.history (session.visited visits first) rest

def Recorded (session : Session) (visits : List Visit) : Prop :=
  ∃ known, session.Tracks known ∧ Watch.Records known session.memory visits

variable {session : Session} {visits : List Visit}

theorem Recorded.step (recorded : session.Recorded visits) (step : Step) :
    (session.step step).2.Recorded (session.visited visits step) := by
  obtain ⟨known, tracks, records⟩ := recorded
  cases step with
  | build name grammar =>
    simp only [Session.step, visited]
    cases defined : session.define name grammar with
    | error fault => exact ⟨known, tracks, records⟩
    | ok next =>
      obtain ⟨more, sub, tracks⟩ := tracks.define defined
      refine ⟨more, tracks, ?_⟩
      rw [define_memory defined]
      exact records.mono sub
  | run mode name text =>
    simp only [Session.step, visited]
    cases found : session.env.find? name with
    | none => exact ⟨known, tracks, records⟩
    | some p =>
      obtain ⟨-, same, records⟩ := Watch.similar_enter (Watch.upholds_records tracks)
        (Run.depthFor session.builds text) (tracks.named name p found) text (Nat.lt_succ_self _)
        session.memory visits records
      rw [same] at records
      exact ⟨known, ⟨tracks.distinct, tracks.numbered, tracks.closed, tracks.named⟩,
        records.recalls, records.started, records.places, records.within⟩

theorem Recorded.history (recorded : session.Recorded visits) (steps : List Step) :
    (session.after steps).Recorded (session.history visits steps) := by
  induction steps generalizing session visits with
  | nil => exact recorded
  | cons first rest ih => exact ih (recorded.step first)

theorem recorded_history (steps : List Step) :
    (empty.after steps).Recorded (empty.history [] steps) :=
  Recorded.history ⟨∅, tracks_empty, Watch.records_empty⟩ steps

variable {steps : List Step} {visit : Visit} {name : String} {node : Address}

end Session

end Descent
