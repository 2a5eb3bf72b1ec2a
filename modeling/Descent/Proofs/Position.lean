import Descent.Proofs.Comparison.Hosts
import Descent.Grammar.Html
import Mathlib.Control.Monad.Basic
import Mathlib.Data.List.Chain

/-!
# Positions in outcomes

Parsers see only what is left of their input, so a position is told by the length of a rest. Main
statement: every outcome of a run lies inside the text that was parsed. What a success leaves is a
rest of the text, and so is what a failure leaves; the notes of a failure, read from the innermost
name outwards, start no later than the failure itself and no earlier than the text, each one at or
before the place of the note inside it.

A run is compared with itself here. The tolerance that carries the chain of the notes widens when a
failure is passed on to an earlier start of the text, and gets one more link where a name is added.
-/

namespace Descent

/-- A failure lies inside a text, and its notes go outwards from it. -/
structure Failure.PlacedIn (f : Failure) (text : Text) : Prop where
  suffix : f.remaining <:+ text
  ordered : (((f.remaining.length : Int) :: f.notes.map Note.left) ++ [(text.length : Int)]).IsChain
    (· ≤ ·)

def Outcome.PlacedIn {α : Type} (text : Text) : Outcome α → Prop
  | .success _ rest => rest <:+ text
  | .failure f => f.PlacedIn text

namespace Failure.PlacedIn

theorem plain {text rest : Text} {message : String} (suffix : rest <:+ text) :
    PlacedIn ⟨message, rest, []⟩ text := by
  refine ⟨suffix, ?_⟩
  have short := suffix.length_le
  simpa using short

theorem widen {f : Failure} {text rest : Text} (suffix : rest <:+ text) (h : f.PlacedIn rest) :
    f.PlacedIn text := by
  refine ⟨h.suffix.trans suffix, ?_⟩
  have ordered := h.ordered
  have short := suffix.length_le
  rw [List.isChain_iff_pairwise, List.pairwise_append] at ordered ⊢
  refine ⟨ordered.1, List.pairwise_singleton _ _, fun left member last here => ?_⟩
  have inner := ordered.2.2 left member _ (List.mem_singleton_self _)
  rw [List.mem_singleton.mp here]
  omega

theorem annotate {f : Failure} {text : Text} (h : f.PlacedIn text) (label : String) :
    (f.annotate label text.length).PlacedIn text := by
  refine ⟨h.suffix, ?_⟩
  have ordered := h.ordered
  rw [List.isChain_iff_pairwise] at ordered ⊢
  simp only [Failure.annotate, List.map_append, List.map_cons, List.map_nil]
  rw [← List.cons_append, List.pairwise_append]
  refine ⟨ordered, List.pairwise_singleton _ _, fun left member last here => ?_⟩
  rw [List.mem_singleton.mp here]
  rcases List.mem_append.mp member with inner | inner
  · exact (List.pairwise_append.mp ordered).2.2 left inner _ (List.mem_singleton_self _)
  · exact Int.le_of_eq (List.mem_singleton.mp inner)

end Failure.PlacedIn

def Tolerance.placed : Tolerance where
  Rel text f g := f = g ∧ f.PlacedIn text
  rel_plain suffix := ⟨rfl, .plain suffix⟩
  rel_widen suffix h := ⟨h.1, h.2.widen suffix⟩
  length_eq h := by rw [h.1]

theorem Tolerance.exact_placed : Tolerance.placed.Exact where
  eq related := related.1
  annotate label related := ⟨rfl, related.2.annotate label⟩

namespace Run

open Comparison

variable {bound : Nat}

theorem results_refl {α : Type} (x : Run α) : (Comparison.run Eq).Rel Eq x x := by
  rintro memory _ rfl
  generalize x.run.run memory = result
  obtain ⟨result, after⟩ := result
  cases result with
  | ok a => exact ⟨.ok rfl, rfl⟩
  | error fault => exact ⟨.error trivial, rfl⟩

theorem denote_placed {env : Env} {enter : Expr Link → Parser Run Value}
    (entered : ∀ p, (Comparison.run Eq).Similar .placed bound 0 (enter p) (enter p))
    (self p : Expr Link) :
    (Comparison.run Eq).Similar .placed bound 0 (Expr.denote (host env enter) self p)
      (Expr.denote (host env enter) self p) := by
  have named (name : Value) : (Comparison.run Eq).Similar .placed bound 0 (Run.named env enter name)
      (Run.named env enter name) :=
    Similar.named_same (fun _ => trivial) (fun _ p _ => entered p) name
  refine Similar.denote_exact Tolerance.exact_placed (fun _ => trivial) named (fun _ => results_refl _) ?_
    (Set.subset_univ _)
  intro place _ text inside
  refine (Comparison.run Eq).rel_bind (results_refl (resolve env place.self place.ref)) ?_
  rintro p _ rfl
  exact entered p text inside

theorem enter_placed (env : Env) (depth : Nat) (p : Expr Link) :
    (Comparison.run Eq).Similar .placed bound 0 (enter env depth p) (enter env depth p) := by
  induction depth generalizing p with
  | zero => exact fun text _ => (Comparison.run Eq).rel_throw trivial
  | succ depth ih => exact denote_placed ih p p

theorem placed_of_similar {p : Parser Run Value} {text : Text}
    (placed : (Comparison.run Eq).Similar .placed (text.length + 1) 0 p p) {memory : Memory}
    {outcome : Outcome Value} (ended : ((p text).run.run memory).1 = .ok outcome) :
    outcome.PlacedIn text := by
  have own := (placed text (Nat.lt_succ_self _) memory memory rfl).1
  rw [ended] at own
  cases own with
  | ok agree =>
    cases agree with
    | success suffix => exact suffix
    | failure related => exact related.2

end Run

/-- Whatever a run returns lies inside its text. -/
theorem Session.outcome_placed (session : Session) (p : Expr Link) (text : Text)
    {outcome : Outcome Value} (h : (session.parse p text).1 = .ok outcome) :
    outcome.PlacedIn text := by
  have own := (Run.enter_placed session.env (Run.depthFor session.builds text) p text
    (Nat.lt_succ_self _) session.memory session.memory rfl).1
  rw [Session.parse_fst, Session.ran] at h
  rw [h] at own
  cases own with
  | ok agree =>
    cases agree with
    | success suffix => exact suffix
    | failure related => exact related.2

theorem Session.outcome_placed_unclosed_tag :
    (Session.empty.parse (.fix Grammar.Html.emptyTag) "<br k".toList).1
      = .ok (.failure ⟨"empty html tag: close bracket: Expected \"/>\" at \"k\"", ['k'],
          [⟨1, some "close bracket"⟩, ⟨5, some "empty html tag"⟩]⟩) ∧
    (Outcome.failure ⟨"empty html tag: close bracket: Expected \"/>\" at \"k\"", ['k'],
      [⟨1, some "close bracket"⟩, ⟨5, some "empty html tag"⟩]⟩ : Outcome Value).PlacedIn
        "<br k".toList := by
  have ran : (Session.empty.parse (.fix Grammar.Html.emptyTag) "<br k".toList).1
      = .ok (.failure ⟨"empty html tag: close bracket: Expected \"/>\" at \"k\"", ['k'],
          [⟨1, some "close bracket"⟩, ⟨5, some "empty html tag"⟩]⟩) := by decide +kernel
  exact ⟨ran, outcome_placed _ _ _ ran⟩

end Descent
