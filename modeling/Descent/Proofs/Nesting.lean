import Descent.Proofs.SelfContained

/-!
# Nested runs

A self-contained grammar whose every level enters the whole only on less text than the level itself
was given. That is told by a comparison: if two parsers that stand for the whole are similar on texts
below a length, then the levels around them are similar on texts that are longer by one.

Main statements, by induction on the levels: how many levels there are does not matter, as long as
there are more than characters; and if nested runs are listed as they are entered, then each of them
was given less text than the run around it.
-/

namespace Descent

variable {ι : Type} {m n : Type → Type} [Monad m] [Monad n] [MonadExceptOf Fault m]
  [MonadExceptOf Fault n]

/-- A level of a grammar can be compared on longer texts than the whole inside it. -/
def Comparison.Lengthens (c : Comparison m n) (body : Expr ι) : Prop :=
  ∀ (length : Nat) (whole : Parser m Value) (whole' : Parser n Value),
    c.Similar .same length 1 whole whole' →
      c.Similar .same (length + 1) 1 (body.denote (.recursive whole) body)
        (body.denote (.recursive whole') body)

variable {body : Expr ι}

/-! ## The number of levels -/

theorem Expr.alone_similar {admits : Fault → Prop}
    (lengthens : (Comparison.except admits).Lengthens body) {depth depth' bound : Nat}
    (enough : bound ≤ depth) (enough' : bound ≤ depth') :
    (Comparison.except admits).Similar .same bound 1 (body.alone depth) (body.alone depth') := by
  induction bound generalizing depth depth' with
  | zero => exact fun text inside => absurd inside (Nat.not_lt_zero _)
  | succ bound ih =>
    obtain ⟨depth, rfl⟩ := Nat.exists_eq_add_one_of_ne_zero (by omega : depth ≠ 0)
    obtain ⟨depth', rfl⟩ := Nat.exists_eq_add_one_of_ne_zero (by omega : depth' ≠ 0)
    exact lengthens bound _ _ (ih (by omega) (by omega))

theorem Results.eq_ok_of_noFault {α : Type} {least : Nat} {text : Text}
    {x y : Except Fault (Outcome α)}
    (h : Results Primitive.noFault (Tolerance.same.Agree least text) x y) :
    ∃ outcome, x = .ok outcome ∧ y = .ok outcome := by
  cases h with
  | error never => exact never.elim
  | ok agree =>
    cases agree with
    | success => exact ⟨_, rfl, rfl⟩
    | failure related =>
      cases related
      exact ⟨_, rfl, rfl⟩

/-- With more levels than characters there is one outcome, whatever their number. -/
theorem Expr.alone_outcome (lengthens : (Comparison.except Primitive.noFault).Lengthens body)
    (text : Text) :
    ∃ outcome, ∀ depth, text.length < depth → body.alone depth text = .ok outcome := by
  have least := alone_similar lengthens (Nat.le_refl (text.length + 1)) (Nat.le_refl _) text
    (Nat.lt_succ_self _)
  obtain ⟨outcome, same, -⟩ := least.eq_ok_of_noFault
  refine ⟨outcome, fun depth deep => ?_⟩
  have more := alone_similar lengthens (Nat.le_refl (text.length + 1)) deep text
    (Nat.lt_succ_self _)
  obtain ⟨outcome', same', more⟩ := more.eq_ok_of_noFault
  rw [more, ← same', same]

/-! ## Listing nested runs -/

/-- A run entered inside another one, by the texts that the two were given. -/
structure Nesting where
  outer : Text
  inner : Text

def Nesting.Descends (nesting : Nesting) : Prop := nesting.inner.length < nesting.outer.length

/-- A computation that lists nested runs, also where it ends in a fault. -/
abbrev Listing := ExceptT Fault (StateM (List Nesting))

/-- The parser of a self-contained grammar, as a parser that lists the nested runs of the whole. -/
def Expr.listed (body : Expr ι) : Nat → Parser Listing Value
  | 0 => fun _ => throw .tooDeep
  | depth + 1 => fun text =>
    body.denote (.recursive fun inner => do
      modify (⟨text, inner⟩ :: ·)
      body.listed depth inner) body text

abbrev Comparison.descending : Comparison Listing (Except Fault) :=
  .stateless fun nestings => ∀ nesting ∈ nestings, nesting.Descends

theorem Expr.listed_similar (lengthens : Comparison.descending.Lengthens body)
    (depth bound : Nat) :
    Comparison.descending.Similar .same bound 1 (body.listed depth) (body.alone depth) := by
  induction depth generalizing bound with
  | zero => exact fun _ _ => Comparison.descending.rel_throw trivial
  | succ depth ih =>
    intro text _
    -- The level is compared on this text alone, so that the whole in it is only ever given less.
    refine lengthens text.length _ _ ?_ text (Nat.lt_succ_self _)
    intro inner shorter nestings descends
    rw [Run.run_bind]
    refine ih (inner.length + 1) inner (Nat.lt_succ_self _) (⟨text, inner⟩ :: nestings) ?_
    exact List.forall_mem_cons.mpr ⟨shorter, descends⟩

theorem Expr.listed_run (lengthens : Comparison.descending.Lengthens body) (depth : Nat)
    (text : Text) :
    ∃ nestings, (body.listed depth text).run.run [] = (body.alone depth text, nestings) ∧
      ∀ nesting ∈ nestings, nesting.Descends := by
  obtain ⟨results, descends⟩ :=
    listed_similar lengthens depth (text.length + 1) text (Nat.lt_succ_self _) [] nofun
  exact ⟨_, Prod.ext results.eq_of_same rfl, descends⟩

end Descent
