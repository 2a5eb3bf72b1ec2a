import Descent.Proofs.Json.Parts
import Descent.Proofs.Nesting

/-!
# A level of the grammar of documents

Every alternative of a value consumes something, and the two that enter further values consume a
mark before that. So a level can be compared on texts that are longer by one than those on which the
values inside it can be. The comparison may admit any faults or none: the one function in the grammar
that can throw one is the one that makes a dictionary of pairs, and it is left to each comparison.
-/

namespace Descent.Grammar.Json

open Comparison Primitive

variable {m n : Type → Type} [Monad m] [Monad n] [MonadExceptOf Fault m] [MonadExceptOf Fault n]
  {c : Comparison m n} {whole : Parser m Value} {whole' : Parser n Value} {bound least : Nat}
  {p : Expr Mention}

theorem similar_number :
    c.Similar .same bound 1 (meaning whole number) (meaning whole' number) :=
  (plain_natural fun _ => ⟨_, rfl⟩).lift nofun

theorem similar_text :
    c.Similar .same bound 2 (meaning whole Json.text) (meaning whole' Json.text) :=
  plain_stringLiteral.lift nofun

theorem similar_boolean :
    c.Similar .same bound 1 (meaning whole boolean) (meaning whole' boolean) :=
  Similar.alternate
    (((Similar.word "true").mapM fun _ => c.rel_pure rfl).mono (by decide) (Nat.le_refl _))
    (((Similar.word "false").mapM fun _ => c.rel_pure rfl).mono (by decide) (Nat.le_refl _))

theorem similar_null : c.Similar .same bound 1 (meaning whole null) (meaning whole' null) :=
  Similar.mono ((Similar.word "null").mapM fun _ => c.rel_pure rfl) (by decide) (Nat.le_refl _)

/-- An optional comma can only consume more. -/
theorem similar_separated (h : c.Similar .same bound least (meaning whole p) (meaning whole' p)) :
    c.Similar .same bound least (meaning whole (p.skipOptional comma))
      (meaning whole' (p.skipOptional comma)) :=
  Similar.skipOptional h
    ((Similar.mark ',').token_expr.mono (Nat.zero_le _) (Nat.le_refl _))

/-- What is repeated between two marks is only run after the first of them. -/
theorem similar_bracketed {opening closing : Char}
    (h : c.Similar .same bound 1 (meaning whole p) (meaning whole' p)) :
    c.Similar .same (bound + 1) 1
      (meaning whole (.between p.many (Expr.char opening).token (.char closing)))
      (meaning whole' (.between p.many (Expr.char opening).token (.char closing))) := by
  have inner : c.Similar .same (bound + 1 - 1) 0 (meaning whole p.many) (meaning whole' p.many) :=
    (h.many (.inl Nat.one_pos)).map _
  exact (Similar.between inner (Similar.mark opening).token_expr (Similar.mark closing)).mono
    (by omega) (Nat.le_refl _)

variable (inside : c.Similar .same bound 1 whole whole')
include inside

theorem similar_array :
    c.Similar .same (bound + 1) 1 (meaning whole array) (meaning whole' array) := by
  have item : c.Similar .same bound 1 (meaning whole Json.item) (meaning whole' Json.item) :=
    similar_separated (p := .ref (.delayed (.recursive valueOrigin))) inside
  exact (similar_bracketed item).named

theorem similar_pair :
    c.Similar .same bound 1 (meaning whole pair) (meaning whole' pair) := by
  have colon : c.Similar .same bound 1 (meaning whole (Expr.char ':').token)
      (meaning whole' (Expr.char ':').token) := (Similar.mark ':').token_expr
  have value := similar_separated (p := (Expr.char ':').token.andThen
    (.ref (.anew (.recursive valueOrigin))))
    (colon.andThen (inside.mono (Nat.le_refl _) (Nat.sub_le _ _)))
  have key : c.Similar .same bound 2 (meaning whole Json.text.token)
      (meaning whole' Json.text.token) := similar_text.token_expr
  have both := key.flatMap fun key =>
    (value.mono (Nat.le_refl _) (Nat.sub_le _ _)).map fun item => Value.pair key item
  exact both.mono (by omega) (Nat.le_refl _)

theorem similar_entries :
    c.Similar .same (bound + 1) 1 (meaning whole entries) (meaning whole' entries) :=
  similar_bracketed (similar_pair inside)

omit inside

theorem lengthens_body
    (collects : ∀ {whole : Parser m Value} {whole' : Parser n Value} {bound : Nat},
      c.Similar .same bound 1 (meaning whole entries) (meaning whole' entries) →
      c.Similar .same bound 1 (meaning whole (entries.map Value.toDict))
        (meaning whole' (entries.map Value.toDict))) :
    c.Lengthens body := by
  intro bound whole whole' inside
  have object : c.Similar .same (bound + 1) 1 (meaning whole object) (meaning whole' object) :=
    (collects (similar_entries inside)).named
  have text : c.Similar .same (bound + 1) 1 (meaning whole Json.text) (meaning whole' Json.text) :=
    similar_text.mono (by omega) (Nat.le_refl _)
  have fails : c.Similar .same (bound + 1) 1 (meaning whole (.choice []))
      (meaning whole' (.choice [])) := (plain_fail _ 1).lift nofun
  exact similar_number.token_expr.alternate <| text.token_expr.alternate <|
    similar_boolean.token_expr.alternate <| similar_null.token_expr.alternate <|
    (similar_array inside).token_expr.alternate <| object.token_expr.alternate fails

end Descent.Grammar.Json
