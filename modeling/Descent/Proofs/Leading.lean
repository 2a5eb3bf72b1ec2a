import Descent.Proofs.Reuse

/-!
# Where references lead

A reference leads to the parser that a memory keeps for it, or else to what it means now. Main
statement: resolving a reference changes for no reference where it leads. So while no parser is built,
a run from any memory has the result of a run that keeps nothing and follows the references to where
they led at its start.
-/

namespace Descent

namespace Memory

def leads (memory : Memory) (env : Env) (place : Place Link) : Except Fault (Expr Link) :=
  match place.ref.slot.bind memory.find? with
  | some p => .ok p
  | none => place.ref.target.find env place.self

/-- All known references lead to where they do from another memory. -/
def LeadsLike (env : Env) (known : Set (Place Link)) (base memory : Memory) : Prop :=
  ∀ place ∈ known, memory.leads env place = base.leads env place

/-- The places of all parsers that are kept are known. -/
def KeepsWithin (known : Set (Place Link)) (memory : Memory) : Prop :=
  ∀ slot p, memory.find? slot = some p → p.Within known

variable {env : Env} {known : Set (Place Link)} {base memory : Memory} {place other : Place Link}

theorem leads_empty (env : Env) (place : Place Link) :
    empty.leads env place = place.ref.target.find env place.self := by
  unfold leads
  cases place.ref.slot <;> rfl

theorem resolve_leads (env : Env) (place : Place Link) (memory : Memory) :
    ((Run.resolve env place.self place.ref).run.run memory).1 = memory.leads env place :=
  Run.resolve_result env place.self place.ref memory

theorem leadsLike_refl (env : Env) (known : Set (Place Link)) (memory : Memory) :
    LeadsLike env known memory memory := fun _ _ => rfl

theorem leads_resolve (distinct : Place.Distinct known) (inside : place ∈ known)
    (inside' : other ∈ known) :
    ((Run.resolve env place.self place.ref).run.run memory).2.leads env other
      = memory.leads env other := by
  unfold leads
  cases here : other.ref.slot with
  | none => rfl
  | some slot =>
    rw [Option.bind_some, Option.bind_some, Run.resolve_find?]
    by_cases own : place.ref.slot = some slot
    · obtain rfl := (distinct place inside other inside').resolve_right fun apart =>
        apart slot own here
      rw [if_pos own]
      cases memory.find? slot with
      | some p => rfl
      | none => cases place.ref.target.find env place.self <;> rfl
    · rw [if_neg own]

theorem keepsWithin_empty (known : Set (Place Link)) : empty.KeepsWithin known := by
  intro slot p kept
  cases kept

theorem LeadsLike.resolve (like : LeadsLike env known base memory) (distinct : Place.Distinct known)
    (inside : place ∈ known) :
    LeadsLike env known base ((Run.resolve env place.self place.ref).run.run memory).2 :=
  fun other inside' => (leads_resolve distinct inside inside').trans (like other inside')

end Memory

/-! ## Runs that keep nothing -/

namespace Run

def hostLed (env : Env) (leads : Place Link → Except Fault (Expr Link))
    (enter : Expr Link → Parser (Except Fault) Value) : Host Link (Except Fault) where
  follow self link text := do enter (← leads ⟨link, self⟩) text
  find := named env enter
  emit _ := pure ()

def enterLed (env : Env) (leads : Place Link → Except Fault (Expr Link)) :
    Nat → Expr Link → Parser (Except Fault) Value
  | 0, _ => fun _ => throw .tooDeep
  | depth + 1, p => Expr.denote (hostLed env leads (enterLed env leads depth)) p p

end Run

namespace Session.Tracks

open Comparison

variable {session : Session} {known : Set (Place Link)} {base : Memory} {bound : Nat}

theorem leads_within (tracks : session.Tracks known) (kept : base.KeepsWithin known)
    {place : Place Link} (inside : place ∈ known) {p : Expr Link}
    (found : base.leads session.env place = .ok p) : p.Within known := by
  unfold Memory.leads at found
  cases keeps : place.ref.slot.bind base.find? with
  | none =>
    rw [keeps] at found
    exact tracks.find_within inside found
  | some q =>
    rw [keeps] at found
    cases found
    obtain ⟨slot, -, keeps⟩ := Option.bind_eq_some_iff.mp keeps
    exact kept slot p keeps

theorem rel_resolve_led (tracks : session.Tracks known) (kept : base.KeepsWithin known)
    {place : Place Link} (inside : place ∈ known) :
    (stateless (base.LeadsLike session.env known)).Rel (fun p p' => p = p' ∧ p.Within known)
      (Run.resolve session.env place.self place.ref) (base.leads session.env place) := by
  intro memory like
  refine ⟨?_, like.resolve tracks.distinct inside⟩
  rw [Memory.resolve_leads, like place inside]
  cases found : base.leads session.env place with
  | error fault => exact .error trivial
  | ok p => exact .ok ⟨rfl, tracks.leads_within kept inside found⟩

theorem similar_denote_led (tracks : session.Tracks known) (kept : base.KeepsWithin known)
    {enter : Expr Link → Parser Run Value} {enter' : Expr Link → Parser (Except Fault) Value}
    (entered : ∀ p : Expr Link, p.Within known →
      (stateless (base.LeadsLike session.env known)).Similar .same bound 0 (enter p) (enter' p))
    {self p : Expr Link} (within : Expr.places self p ⊆ known) :
    (stateless (base.LeadsLike session.env known)).Similar .same bound 0
      (Expr.denote (Run.host session.env enter) self p)
      (Expr.denote (Run.hostLed session.env (base.leads session.env) enter') self p) := by
  have named (name : String) (p : Expr Link) (found : session.env.find? name = some p) :=
    entered p (tracks.named name p found)
  refine Similar.denote_same (fun _ => trivial) ?_ ?_ ?_ within
  · exact Similar.named_same (fun _ => trivial) named
  · intro event memory like
    exact ⟨.ok rfl, like⟩
  · intro place inside text short
    apply (stateless _).rel_bind (tracks.rel_resolve_led kept inside)
    rintro p _ ⟨rfl, within⟩
    exact entered p within text short

theorem similar_led (tracks : session.Tracks known) (kept : base.KeepsWithin known) (depth : Nat)
    {p : Expr Link} (within : p.Within known) :
    (stateless (base.LeadsLike session.env known)).Similar .same bound 0
      (Run.enter session.env depth p)
      (Run.enterLed session.env (base.leads session.env) depth p) := by
  induction depth generalizing p with
  | zero => exact fun text _ => (stateless _).rel_throw trivial
  | succ depth ih => exact tracks.similar_denote_led kept (fun p => ih) (within p)

theorem run_led (tracks : session.Tracks known) (kept : base.KeepsWithin known) (depth : Nat)
    {p : Expr Link} (within : p.Within known) {memory : Memory}
    (like : base.LeadsLike session.env known memory) (text : Text) :
    ((Run.enter session.env depth p text).run.run memory).1
        = Run.enterLed session.env (base.leads session.env) depth p text ∧
      base.LeadsLike session.env known ((Run.enter session.env depth p text).run.run memory).2 := by
  have runs := tracks.similar_led kept depth within text (Nat.lt_succ_self _) memory like
  exact ⟨runs.1.eq_of_same, runs.2⟩

theorem answers_led (tracks : session.Tracks known) (kept : base.KeepsWithin known) {p : Expr Link}
    (within : p.Within known) (like : base.LeadsLike session.env known session.memory) (mode : Mode)
    (texts : List Text) :
    (session.reports mode p texts).map Report.answer = texts.map fun text =>
      .ofRun mode text (Run.enterLed session.env (base.leads session.env)
        (Run.depthFor session.builds text) p text) := by
  induction texts generalizing session with
  | nil => rfl
  | cons text texts ih =>
    obtain ⟨result, after⟩ :=
      tracks.run_led kept (Run.depthFor session.builds text) within like text
    rw [reports, List.map_cons, List.map_cons, report_eq]
    simp only [ran, result]
    congr 1
    exact ih ⟨tracks.distinct, tracks.numbered, tracks.closed, tracks.named⟩ after

end Session.Tracks
end Descent
