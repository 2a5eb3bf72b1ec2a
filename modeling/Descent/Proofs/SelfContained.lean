import Descent.Proofs.Comparison.Run
import Mathlib.Control.Monad.Basic

/-!
# Self-contained grammars

A grammar is self-contained if its references mean the whole of it and it reports nothing. Such a
grammar stands for a parser without state, `Expr.alone`, by recursion on the number of references
that may be entered inside one another. Main statement: every run of a parser that is newly built
from the grammar, however often the parser was used before, answers as that parser does.

The invariant of a session is that whatever is kept in the slots of the build is the parser itself.
A reference therefore leads to the same place whether it was resolved before or not.
-/

namespace Descent

variable {ι κ : Type}

/-! ## The parser of a self-contained grammar -/

def Unary.isLocal : Unary → Bool
  | .dispatch | .trace _ => false
  | _ => true

def Host.recursive {m : Type → Type} [Monad m] [MonadExceptOf Fault m] (whole : Parser m Value) :
    Host ι m where
  follow _ _ := whole
  find _ := fun _ => throw .typeMismatch
  emit _ := pure ()

/-- The parser of a grammar whose references mean the whole of it, where at most `depth`
references are entered inside one another. -/
def Expr.alone (body : Expr ι) : Nat → Parser (Except Fault) Value
  | 0 => fun _ => throw .tooDeep
  | depth + 1 => body.denote (.recursive (body.alone depth)) body

/-- Whether all references of a grammar mean the whole of it, and it needs nothing else. -/
def Expr.isSelfContained : Expr Mention → Bool
  | .prim _ => true
  | .unary op p => op.isLocal && p.isSelfContained
  | .binary _ p q => p.isSelfContained && q.isSelfContained
  | .between p left right => p.isSelfContained && left.isSelfContained && right.isSelfContained
  | .flatMap _ _ => false
  | .fix _ => false
  | .ref (.delayed (.recursive _)) | .ref (.anew (.recursive _)) => true
  | .ref _ => false

/-- A reference to the whole parser, which keeps what it finds in a slot of the given build. -/
structure Link.IsOwn (number : Nat) (link : Link) : Prop where
  target : ∃ origin, link.target = .recursive origin
  slot : ∀ slot ∈ link.slot, slot.getLast? = some number

/-- All references of a built expression are references to the whole of it. -/
def Expr.Closed (number : Nat) : Expr Link → Prop
  | .prim _ => True
  | .unary op p => op.isLocal ∧ p.Closed number
  | .binary _ p q => p.Closed number ∧ q.Closed number
  | .between p left right => p.Closed number ∧ left.Closed number ∧ right.Closed number
  | .flatMap _ _ => False
  | .fix _ => False
  | .ref link => link.IsOwn number

theorem Expr.denoteUnary_recursive (whole : Parser (Except Fault) Value) (op : Unary)
    (p : Parser (Except Fault) Value) :
    denoteUnary (Host.recursive (ι := ι) whole) op p
      = denoteUnary (Host.recursive (ι := κ) whole) op p := by
  cases op <;> rfl

theorem Address.getLast?_extend {address : Address} {number : Nat}
    (own : address.getLast? = some number) (i : Nat) : (i :: address).getLast? = some number := by
  rw [List.getLast?_cons, own]
  rfl

theorem Expr.buildPart_selfContained {grammar : Expr Mention} (h : grammar.isSelfContained)
    (env : Env) {number : Nat} {address : Address} (own : address.getLast? = some number) :
    ∃ built, grammar.buildPart env (some address) = .ok built ∧ built.Closed number ∧
      ∀ (whole : Parser (Except Fault) Value) self self',
        denote (.recursive whole) self built = denote (.recursive whole) self' grammar := by
  induction grammar generalizing address with
  | prim p => exact ⟨.prim p, rfl, trivial, fun _ _ _ => rfl⟩
  | unary op p ih =>
    simp only [isSelfContained, Bool.and_eq_true] at h
    obtain ⟨built, done, closed, same⟩ := ih h.2 own
    refine ⟨.unary op built, by simp only [buildPart, done]; rfl, ⟨h.1, closed⟩, ?_⟩
    intro whole self self'
    rw [denote, denote, same whole self self']
    exact denoteUnary_recursive whole op _
  | binary op p q ihp ihq =>
    simp only [isSelfContained, Bool.and_eq_true] at h
    obtain ⟨p', doneP, closedP, sameP⟩ := ihp h.1 (Address.getLast?_extend own 0)
    obtain ⟨q', doneQ, closedQ, sameQ⟩ := ihq h.2 (Address.getLast?_extend own 1)
    refine ⟨.binary op p' q', by simp only [buildPart, Option.map_some, doneP, doneQ]; rfl, ⟨closedP, closedQ⟩, ?_⟩
    intro whole self self'
    simp only [denote, sameP whole self self', sameQ whole self self']
  | between p left right ihp ihl ihr =>
    simp only [isSelfContained, Bool.and_eq_true] at h
    obtain ⟨p', doneP, closedP, sameP⟩ := ihp h.1.1 (Address.getLast?_extend own 0)
    obtain ⟨l', doneL, closedL, sameL⟩ := ihl h.1.2 (Address.getLast?_extend own 1)
    obtain ⟨r', doneR, closedR, sameR⟩ := ihr h.2 (Address.getLast?_extend own 2)
    refine ⟨.between p' l' r', by simp only [buildPart, Option.map_some, doneP, doneL, doneR]; rfl,
      ⟨closedP, closedL, closedR⟩, ?_⟩
    intro whole self self'
    simp only [denote, sameP whole self self', sameL whole self self', sameR whole self self']
  | flatMap p next => cases h
  | fix body => cases h
  | ref r =>
    match r, h with
    | .delayed (.recursive origin), _ =>
      refine ⟨.ref ⟨.recursive origin, some address⟩, rfl, ⟨⟨origin, rfl⟩, ?_⟩, fun _ _ _ => rfl⟩
      rintro slot ⟨⟩
      exact own
    | .anew (.recursive origin), _ =>
      exact ⟨.ref ⟨.recursive origin, none⟩, rfl, ⟨⟨origin, rfl⟩, nofun⟩, fun _ _ _ => rfl⟩

theorem Expr.alone_congr {body : Expr ι} {body' : Expr κ}
    (same : ∀ whole : Parser (Except Fault) Value, denote (.recursive whole) body body
      = denote (.recursive whole) body' body') (depth : Nat) :
    body.alone depth = body'.alone depth := by
  induction depth with
  | zero => rfl
  | succ depth ih => rw [alone, alone, ih, same]

/-! ## Runs from a memory that keeps the parser itself -/

/-- Whatever is kept in a slot of the build is the parser itself. -/
def Memory.Keeps (number : Nat) (body : Expr Link) (memory : Memory) : Prop :=
  ∀ slot p, slot.getLast? = some number → memory.find? slot = some p → p = .fix body

def Comparison.stateless {σ : Type} (known : σ → Prop) :
    Comparison (ExceptT Fault (StateM σ)) (Except Fault) where
  Rel V x y := ∀ memory, known memory →
    Results (fun _ => True) V (x.run.run memory).1 y ∧ known (x.run.run memory).2
  Admits _ := True
  rel_pure h _ holds := ⟨.ok h, holds⟩
  rel_bind := by
    intro α β V W x y f g h next memory holds
    obtain ⟨results, holds⟩ := h memory holds
    rw [Run.run_bind]
    generalize (x.run.run memory).1 = result at results
    cases results with
    | ok values => exact next _ _ values _ holds
    | error admitted => exact ⟨.error admitted, holds⟩
  rel_mono weaken h memory holds := ⟨(h memory holds).1.mono weaken, (h memory holds).2⟩
  rel_throw admitted _ holds := ⟨.error admitted, holds⟩

theorem Results.eq_of_same {α : Type} {least : Nat} {text : Text}
    {x y : Except Fault (Outcome α)}
    (h : Results (fun _ => True) (Tolerance.same.Agree least text) x y) : x = y := by
  cases h with
  | error => rfl
  | ok agree =>
    cases agree with
    | success => rfl
    | failure related =>
      cases related
      rfl

namespace Run

open Comparison

variable {number : Nat} {body : Expr Link} {env : Env} {bound : Nat}

theorem keeps_bind {memory : Memory} (keeps : memory.Keeps number body) (slot : Address) :
    (memory.bind slot (.fix body)).Keeps number body := by
  intro other p own found
  rw [Memory.find?_bind] at found
  split at found
  · exact (Option.some.inj found).symm
  · exact keeps other p own found

theorem resolve_own (env : Env) {link : Link} (own : link.IsOwn number) {memory : Memory}
    (keeps : memory.Keeps number body) :
    ∃ after : Memory, (resolve env (.fix body) link).run.run memory = (.ok (.fix body), after) ∧
      after.Keeps number body := by
  obtain ⟨origin, target⟩ := own.target
  cases found : link.slot.bind memory.find? with
  | some p =>
    obtain ⟨slot, here, kept⟩ := Option.bind_eq_some_iff.mp found
    have itself := keeps slot p (own.slot slot here) kept
    subst itself
    exact ⟨memory, resolve_found found, keeps⟩
  | none =>
    refine ⟨_, resolve_recursive found target, ?_⟩
    cases link.slot with
    | none => exact keeps
    | some slot => exact keeps_bind keeps slot

variable {enter : Expr Link → Parser Run Value} {whole : Parser (Except Fault) Value}

theorem denote_alone
    (entered : (Comparison.stateless (Memory.Keeps number body)).Similar .same bound 0
      (enter (.fix body)) whole)
    {p : Expr Link} (closed : p.Closed number) :
    (Comparison.stateless (Memory.Keeps number body)).Similar .same bound 0
      (Expr.denote (host env enter) (.fix body) p) (Expr.denote (.recursive whole) body p) := by
  induction p with
  | prim p => exact Similar.prim (fun _ => trivial) p
  | unary op p ih =>
    obtain ⟨islocal, closed⟩ := closed
    cases describes : op.describes with
    | false =>
      refine (ih closed).denoteUnary (fun _ => trivial) describes fun dispatch => ?_
      subst dispatch
      cases islocal
    | true =>
      cases op with
      | name label => exact (ih closed).named
      | trace label => cases islocal
      | _ => cases describes
  | binary op p q ihp ihq =>
    exact (ihp closed.1).denoteBinary (fun _ => trivial) op (ihq closed.2)
  | between p left right ihp ihl ihr =>
    exact (ihp closed.1).enclosed (ihl closed.2.1) (ihr closed.2.2)
  | flatMap p next => cases closed
  | fix p => cases closed
  | ref link =>
    intro text inside memory keeps
    obtain ⟨after, resolved, keeps⟩ := resolve_own env closed keeps
    change Results _ _ ((resolve env (.fix body) link >>= fun p => enter p text).run.run memory).1 _ ∧
      Memory.Keeps number body
        ((resolve env (.fix body) link >>= fun p => enter p text).run.run memory).2
    rw [run_bind, resolved]
    exact entered text inside after keeps

theorem enter_alone (env : Env) (closed : body.Closed number) (depth : Nat) :
    (Comparison.stateless (Memory.Keeps number body)).Similar .same bound 0
      (Run.enter env depth (.fix body)) (body.alone depth) := by
  induction depth with
  | zero => exact fun text _ => (Comparison.stateless _).rel_throw trivial
  | succ depth ih => exact denote_alone ih closed

end Run

/-! ## Sessions -/

namespace Session

variable {number : Nat} {body : Expr Link} {session : Session}

/-- Every run of a parser that is newly built from a grammar, however often it was used before,
gives an answer with a property. -/
def Gives (grammar : Expr Mention) (property : Text → Answer → Prop) : Prop :=
  ∀ texts, ∃ reports, batch [] grammar .parse texts = .ok reports ∧
    List.Forall₂ (fun text report => property text report.answer) texts reports

theorem lt_depthFor (builds : Nat) (text : Text) : text.length < Run.depthFor builds text :=
  Nat.le_mul_of_pos_left (text.length + 1) (Nat.succ_pos builds)

theorem ran_alone {p : Expr Link} (closed : body.Closed number)
    (entering : ∀ env depth, Run.enter env (depth + 1) p = Run.enter env (depth + 1) (.fix body))
    (keeps : session.memory.Keeps number body) (text : Text) :
    (session.ran p text).1 = body.alone (Run.depthFor session.builds text) text ∧
      (session.ran p text).2.Keeps number body := by
  have deep := lt_depthFor session.builds text
  unfold ran
  cases reach : Run.depthFor session.builds text with
  | zero => omega
  | succ depth =>
    rw [entering]
    obtain ⟨results, keeps⟩ := Run.enter_alone session.env closed (depth + 1) text
      (Nat.lt_succ_self _) session.memory keeps
    exact ⟨results.eq_of_same, keeps⟩

theorem reports_alone {p : Expr Link} (closed : body.Closed number)
    (entering : ∀ env depth, Run.enter env (depth + 1) p = Run.enter env (depth + 1) (.fix body))
    (keeps : session.memory.Keeps number body) {property : Text → Answer → Prop}
    (holds : ∀ text depth, text.length < depth →
      property text (.ofRun .parse text (body.alone depth text))) (texts : List Text) :
    List.Forall₂ (fun text report => property text report.answer) texts
      (session.reports .parse p texts) := by
  induction texts generalizing session with
  | nil => exact .nil
  | cons text texts ih =>
    obtain ⟨result, after⟩ := ran_alone closed entering keeps text
    refine .cons ?_ (ih after)
    change property text (.ofRun .parse text (session.ran p text).1)
    rw [result]
    exact holds text _ (lt_depthFor _ _)

/-- A self-contained grammar, by itself or as a recursive parser, answers as its parser without
state does. -/
theorem gives_of_alone {body grammar : Expr Mention} (h : body.isSelfContained)
    (whole : grammar = body ∨ grammar = .fix body) {property : Text → Answer → Prop}
    (holds : ∀ text depth, text.length < depth →
      property text (.ofRun .parse text (body.alone depth text))) :
    Gives grammar property := by
  intro texts
  have own : [empty.builds].getLast? = some 0 := rfl
  obtain ⟨built, done, closed, same⟩ := Expr.buildPart_selfContained h empty.env own
  have alone (depth : Nat) : built.alone depth = body.alone depth :=
    Expr.alone_congr (fun _ => same _ _ _) depth
  have runs {p : Expr Link} (entering : ∀ env depth,
        Run.enter env (depth + 1) p = Run.enter env (depth + 1) (.fix built)) :
      List.Forall₂ (fun text report => property text report.answer) texts
        (Session.reports ⟨[], 1, .empty⟩ .parse p texts) := by
    have keeps : Memory.empty.Keeps 0 built := fun slot p _ found => by cases found
    refine reports_alone closed entering keeps (fun text depth deep => ?_) texts
    rw [alone]
    exact holds text depth deep
  rcases whole with rfl | rfl
  · refine ⟨_, ?_, runs (p := .fix built) fun _ _ => rfl⟩
    simp only [batch, List.foldlM_nil, Session.build, Expr.build, done, pure_bind]
    rfl
  · refine ⟨_, ?_, runs (p := .fix (.fix built)) fun _ _ => rfl⟩
    simp only [batch, List.foldlM_nil, Session.build, Expr.build, Expr.buildPart, done, pure_bind]
    rfl

end Session
end Descent
