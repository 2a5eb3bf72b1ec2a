import Descent.Proofs.Comparison.Primitive
import Descent.Proofs.Runs

/-!
# Comparing runs of expressions

The operations of expressions keep parsers similar, in any two hosts that find similar parsers for
the same name. The two operations that describe a parser, `name` and `trace`, are left to each
comparison. Runs with a memory are compared under a relation between the two memories that every
step keeps up, also where it ends in a fault.
-/

namespace Descent

/-- Whether an operation only describes its part: it names it, or reports its outcomes. -/
def Unary.describes : Unary → Bool
  | .name _ | .trace _ => true
  | _ => false

namespace Comparison

variable {m n : Type → Type} [Monad m] [Monad n] [MonadExceptOf Fault m] [MonadExceptOf Fault n]
variable {c : Comparison m n} {t : Tolerance} {ι κ : Type} {bound : Nat}

theorem rel_ofExcept {α : Type} (faults : ∀ fault, c.Admits fault) (x : Except Fault α) :
    c.Rel Eq (MonadExcept.ofExcept x : m α) (MonadExcept.ofExcept x : n α) := by
  cases x with
  | ok a => exact c.rel_pure rfl
  | error fault => exact c.rel_throw (faults fault)

namespace Similar

theorem prim (faults : ∀ fault, c.Admits fault) (p : Primitive) :
    c.Similar t bound 0 (p.parse.lift (m := m)) (p.parse.lift (m := n)) :=
  p.plain_parse.lift fun fault _ => faults fault

theorem repeated (mismatch : c.Admits .typeMismatch) {p : Parser m Value} {q : Parser n Value}
    (h : c.Similar t bound 0 p q) (count : Value) :
    c.Similar t bound 0 (Expr.repeated p count) (Expr.repeated q count) := by
  unfold Expr.repeated
  split
  · exact (h.times _).map _
  · exact fun text _ => c.rel_throw mismatch

theorem denoteUnary (faults : ∀ fault, c.Admits fault) {host : Host ι m} {host' : Host κ n}
    {op : Unary} (acts : op.describes = false)
    (find : op = .dispatch → ∀ name, c.Similar t bound 0 (host.find name) (host'.find name))
    {p : Parser m Value} {q : Parser n Value}
    (h : c.Similar t bound 0 p q) :
    c.Similar t bound 0 (Expr.denoteUnary host op p) (Expr.denoteUnary host' op q) := by
  cases op with
  | map f => exact h.mapM fun value => rel_ofExcept faults (f value)
  | bind next => exact h.flatMap fun value => prim faults (next value)
  | dispatch => exact h.flatMap (find rfl)
  | many => exact (h.many (.inr fun _ => faults _)).map _
  | many1 => exact (h.many1 (.inr fun _ => faults _)).map _
  | lookahead => exact h.lookahead
  | notFollowedBy => exact h.notFollowedBy.map _
  | name label => cases acts
  | trace label => cases acts

theorem traced {emit : Event → m Unit} {emit' : Event → n Unit} {label : String}
    {p : Parser m Value} {q : Parser n Value} (h : c.Similar t bound 0 p q)
    (matched : ∀ value left,
      c.Rel Eq (emit (.matched label value left)) (emit' (.matched label value left)))
    (failed : ∀ {text f g}, t.Rel text f g →
      c.Rel Eq (emit (.failed label text f.message)) (emit' (.failed label text g.message))) :
    c.Similar t bound 0 (Expr.traced emit label p) (Expr.traced emit' label q) := by
  intro text inside
  refine c.rel_bind (h text inside) fun o o' agree => ?_
  cases agree with
  | success suffix consumed =>
    exact c.rel_bind (matched _ _) fun _ _ _ => c.rel_pure (.success suffix consumed)
  | failure related =>
    exact c.rel_bind (failed related) fun _ _ _ => c.rel_pure (.failure related)

/-- The only repetition among the operations on two parsers is left to each comparison. -/
theorem denoteBinary_of (mismatch : c.Admits .typeMismatch) (op : Binary) {p p' : Parser m Value}
    {q q' : Parser n Value} (h : c.Similar t bound 0 p q) (h' : c.Similar t bound 0 p' q')
    (rounds : op = .sepBy → c.Similar t bound 0 (p.sepBy p') (q.sepBy q')) :
    c.Similar t bound 0 (Expr.denoteBinary op p p') (Expr.denoteBinary op q q') := by
  cases op with
  | andThen => exact h.andThen h'
  | precedes => exact h.precedes h'
  | skipOptional => exact h.skipOptional h'
  | alternate => exact h.alternate h'
  | sepBy => exact (rounds rfl).map _
  | surroundedBy => exact h.enclosed h' h'
  | both => exact h.flatMap fun _ => h'.map _
  | times => exact h.flatMap fun count => repeated mismatch h' count

theorem denoteBinary (faults : ∀ fault, c.Admits fault) (op : Binary) {p p' : Parser m Value}
    {q q' : Parser n Value} (h : c.Similar t bound 0 p q) (h' : c.Similar t bound 0 p' q') :
    c.Similar t bound 0 (Expr.denoteBinary op p p') (Expr.denoteBinary op q q') :=
  denoteBinary_of (faults _) op h h' fun _ => h.sepBy h' (.inr fun _ => faults _)

/-! ## Names -/

variable {enter : Expr Link → Parser m Value} {enter' : Expr Link → Parser n Value} {env env' : Env}

theorem named_of_lookup (faults : ∀ fault, c.Admits fault) {related : Expr Link → Expr Link → Prop}
    (lookups : ∀ name, Option.Rel related (env.find? name) (env'.find? name))
    (entered : ∀ p p', related p p' → c.Similar t bound 0 (enter p) (enter' p')) (name : Value) :
    c.Similar t bound 0 (Run.named env enter name) (Run.named env' enter' name) := by
  unfold Run.named
  split
  · cases name.toText? with
    | none => exact fail _
    | some text =>
      have found := lookups (String.ofList text)
      simp only [Option.bind_some]
      generalize env.find? (String.ofList text) = p at found
      generalize env'.find? (String.ofList text) = p' at found
      cases found with
      | none => exact fail _
      | some holds => exact entered _ _ holds
  · exact fun text _ => c.rel_throw (faults _)

/-- A name leads to the same parser wherever it is entered. -/
theorem named_same (faults : ∀ fault, c.Admits fault)
    (entered : ∀ name p, env.find? name = some p → c.Similar t bound 0 (enter p) (enter' p))
    (name : Value) : c.Similar t bound 0 (Run.named env enter name) (Run.named env enter' name) := by
  have lookups (name : String) :
      Option.Rel (fun p p' => p = p' ∧ ∃ name, env.find? name = some p) (env.find? name)
        (env.find? name) := by
    cases found : env.find? name with
    | none => exact .none
    | some p => exact .some ⟨rfl, name, found⟩
  refine named_of_lookup faults lookups ?_ name
  rintro p _ ⟨rfl, name, found⟩
  exact entered name p found

/-! ## Derived forms -/

variable {host : Host ι m} {host' : Host κ n} {self p : Expr ι} {self' p' : Expr κ} {least : Nat}

theorem token_expr
    (h : c.Similar t bound least (Expr.denote host self p) (Expr.denote host' self' p')) :
    c.Similar t bound least (Expr.denote host self p.token) (Expr.denote host' self' p'.token) :=
  h.precedes (Primitive.plain_skipBlank.lift nofun)

theorem mark (ch : Char) :
    c.Similar t bound 1 (Expr.denote host self (.char ch)) (Expr.denote host' self' (.char ch)) :=
  (Primitive.plain_char ch).lift nofun

theorem word (text : String) :
    c.Similar t bound text.toList.length (Expr.denote host self (.string text))
      (Expr.denote host' self' (.string text)) :=
  (Primitive.plain_string text.toList).lift nofun

theorem named {label : String}
    (h : c.Similar .same bound least (Expr.denote host self p) (Expr.denote host' self' p')) :
    c.Similar .same bound least (Expr.denote host self (p.named label))
      (Expr.denote host' self' (p'.named label)) :=
  h.name fun {text _ _} related =>
    congrArg (fun f : Failure => f.annotate label text.length) related

end Similar

/-! ## Runs with a memory -/

def run (related : Memory → Memory → Prop) : Comparison Run Run where
  Rel V x y := ∀ s s', related s s' →
    Results (fun _ => True) V (x.run.run s).1 (y.run.run s').1 ∧
      related (x.run.run s).2 (y.run.run s').2
  Admits _ := True
  rel_pure h _ _ memories := ⟨.ok h, memories⟩
  rel_bind := by
    intro α β V W x y f g h next s s' memories
    obtain ⟨results, memories⟩ := h s s' memories
    rw [Run.run_bind, Run.run_bind]
    generalize (x.run.run s).1 = result at results
    generalize (y.run.run s').1 = result' at results
    cases results with
    | ok values => exact next _ _ values _ _ memories
    | error admitted => exact ⟨.error admitted, memories⟩
  rel_mono weaken h s s' memories := ⟨(h s s' memories).1.mono weaken, (h s s' memories).2⟩
  rel_throw admitted _ _ memories := ⟨.error admitted, memories⟩

end Comparison
end Descent
