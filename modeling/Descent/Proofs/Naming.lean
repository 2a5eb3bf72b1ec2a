import Descent.Proofs.Stripping

/-!
# Names only describe

A name is added to the failures of a parser and to nothing else. Main statement: take all names
away from a parser and from the definitions that it is built with, and every run accepts the same
texts with the same values, fails at the same places, and throws the same faults. Of a failure the
names are what is missing: its labels, in the order of its notes, were put before the message that
the failure without names has.

The invariant is that a failure and its bare counterpart have the same rest. So a choice between two
failures, which goes by the length of the rests, falls on the same side with and without names, and
the labels of the failure that is dropped are dropped with it.
-/

namespace Descent

def Unary.isName : Unary → Bool
  | .name _ => true
  | _ => false

abbrev Expr.unnamed {ι : Type} (p : Expr ι) : Expr ι := p.strip Unary.isName

abbrev Expr.unnamedEntries {κ ι : Type} (entries : List (κ × Expr ι)) : List (κ × Expr ι) :=
  stripEntries Unary.isName entries

/-- A failure is another one under some names: the labels stand before its message, outermost
first, and its notes list them, innermost first. -/
structure Failure.Describes (f bare : Failure) : Prop where
  remaining : bare.remaining = f.remaining
  notes : bare.notes = []
  labels : ∃ labels : List String, f.notes.map Note.message = labels.map some ∧
    f.message = labels.foldl (fun message label => label ++ ": " ++ message) bare.message

/-- Two answers to a run are the same, or the failure of the first is that of the second under some
names. -/
inductive Answer.Describes : Answer → Answer → Prop where
  | success (value : Value) (rest : Text) :
      Describes (.outcome (.success value rest)) (.outcome (.success value rest))
  | failure {f bare : Failure} (described : f.Describes bare) :
      Describes (.outcome (.failure f)) (.outcome (.failure bare))
  | fault (reason : Fault) : Describes (.fault reason) (.fault reason)

namespace Failure.Describes

theorem plain (message : String) (rest : Text) :
    Describes ⟨message, rest, []⟩ ⟨message, rest, []⟩ :=
  ⟨rfl, rfl, [], rfl, rfl⟩

theorem annotate {f bare : Failure} (h : f.Describes bare) (label : String) (left : Int) :
    (f.annotate label left).Describes bare := by
  obtain ⟨labels, notes, message⟩ := h.labels
  refine ⟨h.remaining, h.notes, labels ++ [label], ?_, ?_⟩
  · simp only [Failure.annotate, List.map_append, notes, List.map_cons, List.map_nil]
  · simp only [Failure.annotate, List.foldl_append, message, List.foldl_cons, List.foldl_nil]

end Failure.Describes

def Tolerance.described : Tolerance where
  Rel _ f bare := f.Describes bare
  rel_plain _ := .plain _ _
  rel_widen _ h := h
  length_eq h := by rw [h.remaining]

open Comparison

theorem Comparison.Similar.name_left {m n : Type → Type} [Monad m] [Monad n]
    [LawfulMonad n] [MonadExceptOf Fault m] [MonadExceptOf Fault n] {c : Comparison m n} {α : Type} {bound : Nat}
    {p : Parser m α} {q : Parser n α} (h : c.Similar .described bound 0 p q) (label : String) :
    c.Similar .described bound 0 (p.name label) q := by
  intro text inside
  rw [← bind_pure (q text)]
  refine c.rel_bind (h text inside) fun o o' agree => ?_
  cases agree with
  | success suffix consumed => exact c.rel_pure (.success suffix consumed)
  | failure related => exact c.rel_pure (.failure (related.annotate label _))

/-- Taking all names away, whatever is reported meanwhile. -/
def naming : Stripping where
  drop := Unary.isName
  tolerance := .described
  logs _ _ := True
  logs_nil := trivial
  logs_resolved _ := trivial
  dropped := by
    intro bound op p q env enter dropped h
    cases op with
    | name label => exact Similar.name_left h label
    | _ => cases dropped
  kept := by
    intro bound op p q env env' enter enter' kept describes h
    cases op with
    | name label => cases kept
    | trace label =>
      exact Similar.traced h (fun _ _ _ _ strips => ⟨.ok rfl, strips.bound, trivial⟩)
        fun _ _ _ strips => ⟨.ok rfl, strips.bound, trivial⟩
    | _ => cases describes

theorem batch_unnamed (definitions : List (String × Expr Mention)) (grammar : Expr Mention)
    (texts : List Text) :
    Results (fun _ => True)
      (List.Forall₂ fun report bare => report.answer.Describes bare.answer)
      (Session.batch definitions grammar .parse texts)
      (Session.batch (Expr.unnamedEntries definitions) grammar.unnamed .parse texts) := by
  refine naming.batch_strips (fun text report bare related => ?_) definitions grammar texts
  cases related with
  | fault => exact .fault _
  | outcome agree =>
    cases agree with
    | success => exact .success _ _
    | failure related => exact .failure related

end Descent
