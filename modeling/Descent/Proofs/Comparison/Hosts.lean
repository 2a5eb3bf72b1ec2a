import Descent.Proofs.Comparison.Run
import Mathlib.Data.Set.Basic

/-!
# Comparing hosts

Runs of one expression in two hosts. What a reference means may depend on the recursive parser around
it, so an expression is followed with its places: each of its references together with the innermost
recursive parser that it stands in. Main statement: where the two hosts agree on all places of an
expression, on names and on events, the expression stands for similar parsers in them. The failures
must be the same; a tolerance may hold back what is known of them.
-/

namespace Descent

variable {ι : Type}

/-- A reference and the innermost recursive parser around it. -/
structure Place (ι : Type) where
  ref : ι
  self : Expr ι

/-- The places of an expression that stands inside the recursive parser `self`. -/
def Expr.places (self : Expr ι) : Expr ι → Set (Place ι)
  | .prim _ => ∅
  | .unary _ p => places self p
  | .binary _ p q => places self p ∪ places self q
  | .between p left right => places self p ∪ places self left ∪ places self right
  | .flatMap p next => places self p ∪ {place | ∃ value, place ∈ places self (next value)}
  | .fix body => places (.fix body) body
  | .ref r => {⟨r, self⟩}

/-- A tolerance of failures that are the same, whatever labels are put before them. -/
structure Tolerance.Exact (t : Tolerance) : Prop where
  eq : ∀ {text : Text} {f g : Failure}, t.Rel text f g → f = g
  annotate : ∀ {text : Text} {f : Failure} (label : String), t.Rel text f f →
    t.Rel text (f.annotate label text.length) (f.annotate label text.length)

theorem Tolerance.exact_same : Tolerance.same.Exact where
  eq related := related
  annotate _ _ := rfl

namespace Comparison.Similar

variable {m n : Type → Type} [Monad m] [Monad n] [MonadExceptOf Fault m] [MonadExceptOf Fault n]
variable {c : Comparison m n} {t : Tolerance} {bound : Nat} {κ : Type}

/-- Every operation on one parser keeps the same outcomes, also one that only describes it. -/
theorem denoteUnary_exact (exact : t.Exact) (faults : ∀ fault, c.Admits fault) {host : Host ι m}
    {host' : Host κ n} (find : ∀ name, c.Similar t bound 0 (host.find name) (host'.find name))
    (emits : ∀ event, c.Rel Eq (host.emit event) (host'.emit event)) (op : Unary)
    {p : Parser m Value} {q : Parser n Value} (h : c.Similar t bound 0 p q) :
    c.Similar t bound 0 (Expr.denoteUnary host op p) (Expr.denoteUnary host' op q) := by
  cases describes : op.describes with
  | false => exact h.denoteUnary faults describes fun _ => find
  | true =>
    cases op with
    | name label =>
      refine h.name fun {_ f g} related => ?_
      obtain rfl := exact.eq related
      exact exact.annotate label related
    | trace label =>
      refine h.traced (fun _ _ => emits _) fun {_ f g} related => ?_
      obtain rfl := exact.eq related
      exact emits _
    | _ => cases describes

theorem denote_exact (exact : t.Exact) (faults : ∀ fault, c.Admits fault) {host : Host ι m}
    {host' : Host ι n} (find : ∀ name, c.Similar t bound 0 (host.find name) (host'.find name))
    (emits : ∀ event, c.Rel Eq (host.emit event) (host'.emit event)) {known : Set (Place ι)}
    (follow : ∀ place ∈ known, c.Similar t bound 0 (host.follow place.self place.ref)
      (host'.follow place.self place.ref))
    {self p : Expr ι} (within : Expr.places self p ⊆ known) :
    c.Similar t bound 0 (Expr.denote host self p) (Expr.denote host' self p) := by
  induction p generalizing self with
  | prim p => exact prim faults p
  | unary op p ih => exact denoteUnary_exact exact faults find emits op (ih within)
  | binary op p q ihp ihq =>
    obtain ⟨inP, inQ⟩ := Set.union_subset_iff.mp within
    exact (ihp inP).denoteBinary faults op (ihq inQ)
  | between p left right ihp ihl ihr =>
    obtain ⟨inPL, inR⟩ := Set.union_subset_iff.mp within
    obtain ⟨inP, inL⟩ := Set.union_subset_iff.mp inPL
    exact (ihp inP).enclosed (ihl inL) (ihr inR)
  | flatMap p next ihp ihn =>
    obtain ⟨inP, inNext⟩ := Set.union_subset_iff.mp within
    exact (ihp inP).flatMap fun value => ihn value fun place inside => inNext ⟨value, inside⟩
  | fix body ih => exact ih within
  | ref r => exact follow ⟨r, self⟩ (within rfl)

theorem denoteUnary_same (faults : ∀ fault, c.Admits fault) {host : Host ι m} {host' : Host κ n}
    (find : ∀ name, c.Similar .same bound 0 (host.find name) (host'.find name))
    (emits : ∀ event, c.Rel Eq (host.emit event) (host'.emit event)) (op : Unary)
    {p : Parser m Value} {q : Parser n Value} (h : c.Similar .same bound 0 p q) :
    c.Similar .same bound 0 (Expr.denoteUnary host op p) (Expr.denoteUnary host' op q) :=
  denoteUnary_exact Tolerance.exact_same faults find emits op h

theorem denote_same (faults : ∀ fault, c.Admits fault) {host : Host ι m} {host' : Host ι n}
    (find : ∀ name, c.Similar .same bound 0 (host.find name) (host'.find name))
    (emits : ∀ event, c.Rel Eq (host.emit event) (host'.emit event)) {known : Set (Place ι)}
    (follow : ∀ place ∈ known, c.Similar .same bound 0 (host.follow place.self place.ref)
      (host'.follow place.self place.ref))
    {self p : Expr ι} (within : Expr.places self p ⊆ known) :
    c.Similar .same bound 0 (Expr.denote host self p) (Expr.denote host' self p) :=
  denote_exact Tolerance.exact_same faults find emits follow within

end Comparison.Similar
end Descent
