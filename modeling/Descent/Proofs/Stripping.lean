import Descent.Proofs.Comparison.Run
import Mathlib.Control.Monad.Basic

/-!
# Taking descriptions away

Names and traces describe a parser, and can be taken away from an expression together with the
environment that it runs in. Here that is done for whichever operations `drop` picks. Main
statements: building commutes with taking away, and if dropping one operation from one parser keeps
its outcomes within a tolerance, then a session and the stripped one give related reports, run by
run, from then on. The references that were resolved before are stripped too; how the two logs are
related is left to the caller.
-/

namespace Descent

variable {ι : Type}

/-! ## Stripped expressions -/

/-- An expression without the operations on one parser that `drop` picks. -/
def Expr.strip (drop : Unary → Bool) : Expr ι → Expr ι
  | .prim p => .prim p
  | .unary op p => if drop op then p.strip drop else .unary op (p.strip drop)
  | .binary op p q => .binary op (p.strip drop) (q.strip drop)
  | .between p left right => .between (p.strip drop) (left.strip drop) (right.strip drop)
  | .flatMap p next => .flatMap (p.strip drop) fun value => (next value).strip drop
  | .fix body => .fix (body.strip drop)
  | .ref r => .ref r

def Expr.stripEntries {κ : Type} (drop : Unary → Bool) (entries : List (κ × Expr ι)) :
    List (κ × Expr ι) :=
  entries.map fun entry => (entry.1, entry.2.strip drop)

theorem Expr.lookup_stripEntries {κ : Type} [BEq κ] (drop : Unary → Bool)
    (entries : List (κ × Expr ι)) (key : κ) :
    (stripEntries drop entries).lookup key = (entries.lookup key).map (Expr.strip drop) := by
  induction entries with
  | nil => rfl
  | cons entry entries ih =>
    obtain ⟨name, p⟩ := entry
    unfold stripEntries at ih ⊢
    simp only [List.map_cons, List.lookup_cons, ih]
    cases key == name <;> rfl

theorem Expr.orRaise_strip (drop : Unary → Bool) (p : Except Fault (Expr Link)) :
    orRaise (p.map (Expr.strip drop)) = (orRaise p).strip drop := by
  cases p <;> rfl

theorem Expr.buildPart_strip (drop : Unary → Bool) (env : Env) (address : Option Address)
    (grammar : Expr Mention) :
    (grammar.strip drop).buildPart (stripEntries drop env) address
      = (grammar.buildPart env address).map (Expr.strip drop) := by
  induction grammar generalizing address with
  | prim p => rfl
  | unary op p ih =>
    by_cases dropped : drop op
    · simp only [Expr.strip, dropped, ↓reduceIte, ih, Expr.buildPart]
      cases p.buildPart env address with
      | error fault => rfl
      | ok p => simp [Except.map, bind, Except.bind, pure, Except.pure, Expr.strip, dropped]
    · simp only [Expr.strip, dropped, Bool.false_eq_true, ↓reduceIte, Expr.buildPart, ih]
      cases p.buildPart env address with
      | error fault => rfl
      | ok p => simp [Except.map, bind, Except.bind, pure, Except.pure, Expr.strip, dropped]
  | binary op p q ihp ihq =>
    simp only [Expr.strip, Expr.buildPart, ihp, ihq]
    cases p.buildPart env (address.map (0 :: ·)) with
    | error fault => rfl
    | ok p => cases q.buildPart env (address.map (1 :: ·)) <;> rfl
  | between p left right ihp ihl ihr =>
    simp only [Expr.strip, Expr.buildPart, ihp, ihl, ihr]
    cases p.buildPart env (address.map (0 :: ·)) with
    | error fault => rfl
    | ok p =>
      cases left.buildPart env (address.map (1 :: ·)) with
      | error fault => rfl
      | ok left => cases right.buildPart env (address.map (2 :: ·)) <;> rfl
  | flatMap p next ihp ihn =>
    simp only [Expr.strip, Expr.buildPart, ihp, ihn, orRaise_strip]
    cases p.buildPart env address <;> rfl
  | fix body ih =>
    simp only [Expr.strip, Expr.buildPart, ih]
    cases body.buildPart env address <;> rfl
  | ref r =>
    cases r with
    | use name =>
      simp only [Expr.strip, Expr.buildPart, Env.find?, lookup_stripEntries]
      cases env.lookup name <;> rfl
    | delayed target => rfl
    | anew target => rfl
    | refused fault => rfl

theorem Expr.build_strip (drop : Unary → Bool) (env : Env) (number : Nat)
    (grammar : Expr Mention) :
    (grammar.strip drop).build (stripEntries drop env) number
      = (grammar.build env number).map (Expr.strip drop) := by
  simp only [Expr.build, buildPart_strip]
  cases grammar.buildPart env (some [number]) <;> rfl

/-! ## Stripped memories -/

/-- A memory holds the same parsers as another one, stripped, and their logs are related. -/
structure Memory.Strips (drop : Unary → Bool) (logs : List Event → List Event → Prop)
    (memory memory' : Memory) : Prop where
  bound : memory'.bound = Expr.stripEntries drop memory.bound
  log : logs memory.log memory'.log

/-- What has to be known of one operation to strip whole sessions of it. -/
structure Stripping where
  drop : Unary → Bool
  tolerance : Tolerance
  logs : List Event → List Event → Prop
  logs_nil : logs [] []
  logs_resolved : ∀ {log log' : List Event} {origin : String},
    logs log log' → logs (.resolved origin :: log) (.resolved origin :: log')
  dropped : ∀ {bound : Nat} {op : Unary} {p q : Parser Run Value} {env : Env}
    {enter : Expr Link → Parser Run Value}, drop op →
    (Comparison.run (Memory.Strips drop logs)).Similar tolerance bound 0 p q →
    (Comparison.run (Memory.Strips drop logs)).Similar tolerance bound 0
      (Expr.denoteUnary (Run.host env enter) op p) q
  kept : ∀ {bound : Nat} {op : Unary} {p q : Parser Run Value} {env env' : Env}
    {enter enter' : Expr Link → Parser Run Value}, drop op = false → op.describes →
    (Comparison.run (Memory.Strips drop logs)).Similar tolerance bound 0 p q →
    (Comparison.run (Memory.Strips drop logs)).Similar tolerance bound 0
      (Expr.denoteUnary (Run.host env enter) op p) (Expr.denoteUnary (Run.host env' enter') op q)

namespace Stripping

open Comparison

variable (s : Stripping) {env : Env} {bound : Nat}

def comparison : Comparison Run Run := .run (Memory.Strips s.drop s.logs)

theorem rel_get : s.comparison.Rel (Memory.Strips s.drop s.logs) get get :=
  fun _ _ strips => ⟨.ok strips, strips⟩

theorem rel_modify {f f' : Memory → Memory}
    (h : ∀ memory memory', Memory.Strips s.drop s.logs memory memory' →
      Memory.Strips s.drop s.logs (f memory) (f' memory')) :
    s.comparison.Rel Eq (modify f : Run Unit) (modify f') :=
  fun _ _ strips => ⟨.ok rfl, h _ _ strips⟩

theorem rel_lookup (self : Expr Link) (target : Target) :
    s.comparison.Rel (fun p q => q = p.strip s.drop) (Run.lookup env self target)
      (Run.lookup (Expr.stripEntries s.drop env) (self.strip s.drop) target) := by
  cases target with
  | recursive origin => exact s.comparison.rel_pure rfl
  | named name =>
    simp only [Run.lookup, Env.find?, Expr.lookup_stripEntries]
    cases env.lookup name with
    | none => exact s.comparison.rel_throw trivial
    | some p => exact s.comparison.rel_pure rfl

theorem rel_resolve (self : Expr Link) (link : Link) :
    s.comparison.Rel (fun p q => q = p.strip s.drop) (Run.resolve env self link)
      (Run.resolve (Expr.stripEntries s.drop env) (self.strip s.drop) link) := by
  unfold Run.resolve
  refine s.comparison.rel_bind s.rel_get fun memory memory' strips => ?_
  have found : link.slot.bind memory'.find?
      = (link.slot.bind memory.find?).map (Expr.strip s.drop) := by
    cases link.slot with
    | none => rfl
    | some slot => simp only [Option.bind_some, Memory.find?, strips.bound,
        Expr.lookup_stripEntries]
  rw [found]
  cases link.slot.bind memory.find? with
  | some p => exact s.comparison.rel_pure rfl
  | none =>
    refine s.comparison.rel_bind (s.rel_lookup self link.target) fun p p' stripped => ?_
    subst stripped
    have reported : s.comparison.Rel Eq (Run.emit (.resolved link.target.origin))
        (Run.emit (.resolved link.target.origin)) :=
      s.rel_modify fun _ _ strips => ⟨strips.bound, s.logs_resolved strips.log⟩
    cases link.slot with
    | none => exact s.comparison.rel_bind reported fun _ _ _ => s.comparison.rel_pure rfl
    | some slot =>
      refine s.comparison.rel_bind (s.rel_modify fun _ _ strips => ⟨?_, strips.log⟩) fun _ _ _ =>
        s.comparison.rel_bind reported fun _ _ _ => s.comparison.rel_pure rfl
      simp only [Memory.bind, Expr.stripEntries, strips.bound, List.map_cons]

variable {enter enter' : Expr Link → Parser Run Value}

theorem similar_named
    (entered : ∀ p, s.comparison.Similar s.tolerance bound 0 (enter p) (enter' (p.strip s.drop)))
    (name : Value) :
    s.comparison.Similar s.tolerance bound 0 (Run.named env enter name)
      (Run.named (Expr.stripEntries s.drop env) enter' name) := by
  have lookups (name : String) : Option.Rel (fun p q => q = p.strip s.drop) (env.find? name)
      (Env.find? (Expr.stripEntries s.drop env) name) := by
    unfold Env.find?
    rw [Expr.lookup_stripEntries]
    cases env.lookup name with
    | none => exact .none
    | some p => exact .some rfl
  refine Similar.named_of_lookup (fun _ => trivial) lookups ?_ name
  rintro p _ rfl
  exact entered p

theorem similar_denote
    (entered : ∀ p, s.comparison.Similar s.tolerance bound 0 (enter p) (enter' (p.strip s.drop)))
    (self p : Expr Link) :
    s.comparison.Similar s.tolerance bound 0 (Expr.denote (Run.host env enter) self p)
      (Expr.denote (Run.host (Expr.stripEntries s.drop env) enter') (self.strip s.drop)
        (p.strip s.drop)) := by
  induction p generalizing self with
  | prim p => exact Similar.prim (fun _ => trivial) p
  | unary op p ih =>
    by_cases dropped : s.drop op
    · simp only [Expr.strip, dropped, ↓reduceIte]
      exact s.dropped dropped (ih self)
    · simp only [Expr.strip, dropped, Bool.false_eq_true, ↓reduceIte]
      cases describes : op.describes with
      | true => exact s.kept (Bool.eq_false_iff.mpr dropped) describes (ih self)
      | false => exact (ih self).denoteUnary (fun _ => trivial) describes fun _ =>
          s.similar_named entered
  | binary op p q ihp ihq => exact (ihp self).denoteBinary (fun _ => trivial) op (ihq self)
  | between p left right ihp ihl ihr => exact (ihp self).enclosed (ihl self) (ihr self)
  | flatMap p next ihp ihn => exact (ihp self).flatMap fun value => ihn value self
  | fix body ih => exact ih (.fix body)
  | ref link =>
    intro text inside
    refine s.comparison.rel_bind (s.rel_resolve self link) fun p p' stripped => ?_
    subst stripped
    exact entered p text inside

theorem similar_enter (depth : Nat) (p : Expr Link) :
    s.comparison.Similar s.tolerance bound 0 (Run.enter env depth p)
      (Run.enter (Expr.stripEntries s.drop env) depth (p.strip s.drop)) := by
  induction depth generalizing p with
  | zero => exact fun text _ => s.comparison.rel_throw trivial
  | succ depth ih => exact s.similar_denote ih p p

/-! ## Stripped sessions -/

structure Sessions (session session' : Session) : Prop where
  env : session'.env = Expr.stripEntries s.drop session.env
  builds : session'.builds = session.builds
  memory : Memory.Strips s.drop s.logs session.memory session'.memory

/-- The reports on a run and on the stripped one: the same fault, or outcomes that agree, and in
both cases related logs, which the reports list in order. -/
inductive Reports (text : Text) : Report → Report → Prop where
  | fault {reason : Fault} {log log' : List Event} (logged : s.logs log log') :
      Reports text ⟨.fault reason, log.reverse⟩ ⟨.fault reason, log'.reverse⟩
  | outcome {o o' : Outcome Value} {log log' : List Event} (agree : s.tolerance.Agree 0 text o o')
      (logged : s.logs log log') :
      Reports text ⟨.outcome o, log.reverse⟩ ⟨.outcome o', log'.reverse⟩

variable {s} {session session' : Session}

theorem sessions_empty : s.Sessions .empty .empty :=
  ⟨rfl, rfl, rfl, s.logs_nil⟩

theorem ran_strips (strips : s.Sessions session session') (p : Expr Link) (text : Text) :
    Results (fun _ => True) (s.tolerance.Agree 0 text) (session.ran p text).1
        (session'.ran (p.strip s.drop) text).1 ∧
      Memory.Strips s.drop s.logs (session.ran p text).2
        (session'.ran (p.strip s.drop) text).2 := by
  unfold Session.ran
  rw [strips.env, strips.builds]
  exact s.similar_enter _ p text (Nat.lt_succ_self _) _ _ strips.memory

theorem report_strips (strips : s.Sessions session session') (p : Expr Link) (text : Text) :
    s.Reports text (session.report .parse p text).1
        (session'.report .parse (p.strip s.drop) text).1 ∧
      s.Sessions (session.report .parse p text).2
        (session'.report .parse (p.strip s.drop) text).2 := by
  obtain ⟨results, memories⟩ := ran_strips strips p text
  rw [Session.report_eq, Session.report_eq]
  refine ⟨?_, strips.env, strips.builds, memories.bound, s.logs_nil⟩
  generalize (session.ran p text).1 = result at results
  generalize (session'.ran (p.strip s.drop) text).1 = result' at results
  cases results with
  | ok agree => exact .outcome agree memories.log
  | error => exact .fault memories.log

theorem reports_strips {W : Report → Report → Prop}
    (weaken : ∀ text report report', s.Reports text report report' → W report report')
    (strips : s.Sessions session session') (p : Expr Link) (texts : List Text) :
    List.Forall₂ W (session.reports .parse p texts)
      (session'.reports .parse (p.strip s.drop) texts) := by
  induction texts generalizing session session' with
  | nil => exact .nil
  | cons text texts ih =>
    obtain ⟨first, rest⟩ := report_strips strips p text
    exact .cons (weaken text _ _ first) (ih rest)

theorem build_strips (strips : s.Sessions session session') (grammar : Expr Mention) :
    (∃ fault, session.build grammar = .error fault ∧
      session'.build (grammar.strip s.drop) = .error fault) ∨
    ∃ p after after', session.build grammar = .ok (p, after) ∧
      session'.build (grammar.strip s.drop) = .ok (p.strip s.drop, after') ∧
      s.Sessions after after' := by
  have built := Expr.build_strip s.drop session.env session.builds grammar
  unfold Session.build
  rw [strips.env, strips.builds, built]
  cases grammar.build session.env session.builds with
  | error fault => exact .inl ⟨fault, rfl, rfl⟩
  | ok p => exact .inr ⟨p, _, _, rfl, rfl, rfl, rfl, strips.memory⟩

theorem define_strips (strips : s.Sessions session session') (name : String)
    (grammar : Expr Mention) :
    Results (fun _ => True) s.Sessions (session.define name grammar)
      (session'.define name (grammar.strip s.drop)) := by
  unfold Session.define
  rcases build_strips strips grammar with ⟨fault, left, right⟩ | ⟨p, after, after', left, right, h⟩
  · rw [left, right]
    exact .error trivial
  · rw [left, right]
    exact .ok ⟨by simp [Env.define, Expr.stripEntries, h.env], h.builds, h.memory⟩

theorem definitions_strips (strips : s.Sessions session session')
    (definitions : List (String × Expr Mention)) :
    Results (fun _ => True) s.Sessions
      (definitions.foldlM (fun session d => session.define d.1 d.2) session)
      ((Expr.stripEntries s.drop definitions).foldlM (fun session d => session.define d.1 d.2)
        session') := by
  induction definitions generalizing session session' with
  | nil => exact .ok strips
  | cons definition definitions ih =>
    exact (Comparison.except fun _ => True).rel_bind
      (define_strips strips definition.1 definition.2) fun _ _ strips => ih strips

/-- Building and running a parser and its definitions, and doing so with all of them stripped, ends
in the same fault, or gives reports that are related one by one. -/
theorem batch_strips {W : Report → Report → Prop}
    (weaken : ∀ text report report', s.Reports text report report' → W report report')
    (definitions : List (String × Expr Mention)) (grammar : Expr Mention) (texts : List Text) :
    Results (fun _ => True) (List.Forall₂ W) (Session.batch definitions grammar .parse texts)
      (Session.batch (Expr.stripEntries s.drop definitions) (grammar.strip s.drop) .parse
        texts) := by
  unfold Session.batch
  refine (Comparison.except fun _ => True).rel_bind
    (definitions_strips s.sessions_empty definitions) fun session session' strips => ?_
  rcases build_strips strips grammar with ⟨fault, left, right⟩ | ⟨p, after, after', left, right, h⟩
  · rw [left, right]
    exact .error trivial
  · rw [left, right]
    exact .ok (reports_strips weaken h p texts)

end Stripping
end Descent
