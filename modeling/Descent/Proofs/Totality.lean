import Descent.Proofs.Html.Acceptance
import Descent.Proofs.Json.Level

/-!
# The shipped grammars are total

Every run of a shipped grammar ends in an outcome, on every text. The one operation in them that can
throw a fault makes a dictionary of pairs, and it only meets pairs whose keys are texts. Repetitions
end because whatever is repeated consumes something, and documents because every level of them is
entered with less text than the one around it.
-/

namespace Descent

open Descent.Parser Primitive Comparison

/-! ## Parsers without faults -/

/-- Two parsers throw no fault and have the same outcomes. -/
abbrev Total {α : Type} (bound least : Nat) (p q : Parser (Except Fault) α) : Prop :=
  (Comparison.except noFault).Similar .same bound least p q

variable {α β : Type} {bound least : Nat}

/-- A function need only be made for the values that it is given. -/
theorem Total.mapM {p q : Parser (Except Fault) α} {f : α → Except Fault β}
    (h : Total bound least p q)
    (made : ∀ text value rest, p.Accepts text value rest → ∃ w, f value = .ok w) :
    Total bound least (p.mapM f) (q.mapM f) := by
  intro text inside
  have outcomes := h text inside
  unfold Parser.mapM
  generalize first : p text = x at outcomes ⊢
  generalize q text = y at outcomes ⊢
  cases outcomes with
  | error never => exact never.elim
  | ok agree =>
    cases agree with
    | failure related => exact .ok (.failure related)
    | success suffix consumed =>
      obtain ⟨w, done⟩ := made _ _ _ first
      simp only [bind, Except.bind, Outcome.mapValue, done]
      exact .ok (.success suffix consumed)

def Expr.IsTotal (grammar : Expr Mention) : Prop :=
  Session.Gives grammar fun _ answer => ∃ outcome, answer = .outcome outcome

theorem Expr.isTotal_of_total {grammar : Expr Mention} (h : grammar.isSelfContained)
    (total : ∀ (whole : Parser (Except Fault) Value) (bound : Nat),
      Total bound least (grammar.denote (.recursive whole) grammar)
        (grammar.denote (.recursive whole) grammar)) : grammar.IsTotal := by
  refine Session.gives_of_alone h (.inl rfl) fun text depth deep => ?_
  obtain ⟨depth, rfl⟩ := Nat.exists_eq_add_one_of_ne_zero (by omega : depth ≠ 0)
  obtain ⟨outcome, same, -⟩ :=
    (total (grammar.alone depth) (text.length + 1) text (Nat.lt_succ_self _)).eq_ok_of_noFault
  exact ⟨outcome, by rw [Expr.alone, same]; rfl⟩

theorem Expr.isTotal_prim {p : Primitive} (plain : p.parse.Plain noFault least) :
    (Expr.prim p).IsTotal :=
  isTotal_of_total rfl fun _ _ => plain.lift nofun

namespace Grammar

/-! ## Documents -/

namespace Json

theorem accepts_pair_keyed {whole : Parser (Except Fault) Value} {text rest : Text} {value : Value}
    (accepted : (meaning whole pair).Accepts text value rest) :
    ∃ key item, value = .pair (.str key) item := by
  obtain ⟨key, _, _, item, -, -, rfl, -⟩ := accepts_pair.mp accepted
  exact ⟨key.content, item, rfl⟩

theorem lengthens_noFault : (Comparison.except noFault).Lengthens body := by
  refine lengthens_body fun {whole whole' bound} pairs => ?_
  refine Total.mapM pairs fun text value rest accepted => ?_
  obtain ⟨_, _, values, rfl, -, -, rounds, -⟩ := accepts_bracketed.mp accepted
  rw [ofExcept_eq]
  exact Value.toDict_of_keyed (rounds.forall fun _ _ _ => accepts_pair_keyed)

theorem lengthens_descending : Comparison.descending.Lengthens body :=
  lengthens_body fun pairs => pairs.mapM fun _ => Comparison.rel_ofExcept (fun _ => trivial) _

/-- Every run of the parser ends in an outcome, and the runs nested in it get less text each than the
run around them. -/
theorem value_gives :
    Session.Gives value fun text answer => ∃ outcome, answer = .outcome outcome ∧
      ∀ depth, text.length < depth →
        ∃ nestings, (body.listed depth text).run.run [] = (.ok outcome, nestings) ∧
          ∀ nesting ∈ nestings, nesting.Descends := by
  refine Session.gives_of_alone (show body.isSelfContained from rfl) (.inr rfl)
    fun text depth deep => ?_
  obtain ⟨outcome, levels⟩ := Expr.alone_outcome lengthens_noFault text
  refine ⟨outcome, by rw [levels depth deep]; rfl, fun depth deep => ?_⟩
  obtain ⟨nestings, listed, descends⟩ := Expr.listed_run lengthens_descending depth text
  exact ⟨nestings, by rw [listed, levels depth deep], descends⟩

end Json

/-! ## Tags -/

namespace Html

variable {whole : Parser (Except Fault) Value} {self : Expr Mention}

theorem total_tagAttribute :
    Total bound 1 (Expr.denote (.recursive whole) self tagAttribute)
      (Expr.denote (.recursive whole) self tagAttribute) := by
  have key : Total bound 1 (Expr.denote (.recursive whole) self (Expr.prim .letters).token)
      (Expr.denote (.recursive whole) self (Expr.prim .letters).token) :=
    Similar.token_expr (plain_letters.lift nofun)
  have value : Total (bound - 1) (1 + 2)
      (Expr.denote (.recursive whole) self ((Expr.char '=').andThen (.prim .stringLiteral)))
      (Expr.denote (.recursive whole) self ((Expr.char '=').andThen (.prim .stringLiteral))) :=
    (Similar.mark '=').andThen (plain_stringLiteral.lift nofun)
  have both := key.flatMap fun first => value.map fun second => Value.pair first second
  exact Similar.named (p := (Expr.prim .letters).token.both _) (both.mono (by omega) (Nat.le_refl _))

theorem total_attributes :
    Total bound 0 (Expr.denote (.recursive whole) self attributes)
      (Expr.denote (.recursive whole) self attributes) := by
  have single : Total bound 1 (Expr.denote (.recursive whole) self tagAttribute.token)
      (Expr.denote (.recursive whole) self tagAttribute.token) := total_tagAttribute.token_expr
  refine Total.mapM ((single.many (.inl Nat.one_pos)).map Value.list)
    fun text value rest accepted => ?_
  obtain ⟨values, repeated, rfl⟩ := accepts_map.mp accepted
  rw [ofExcept_eq]
  refine Value.toDict_of_keyed ((accepts_many.mp repeated).1.forall fun _ _ _ item => ?_)
  obtain ⟨a, rfl, -⟩ := accepts_attribute.mp item
  exact ⟨_, _, rfl⟩

theorem total_emptyTag :
    Total bound 1 (Expr.denote (.recursive whole) self emptyTag)
      (Expr.denote (.recursive whole) self emptyTag) := by
  have name : Total (bound - 1) 1 (Expr.denote (.recursive whole) self tagName)
      (Expr.denote (.recursive whole) self tagName) :=
    (Similar.token_expr (p := .prim .letters) (plain_letters.lift nofun)).named
  have parts : Total (bound - 1) (1 + 0)
      (Expr.denote (.recursive whole) self (tagName.both attributes))
      (Expr.denote (.recursive whole) self (tagName.both attributes)) :=
    name.flatMap fun first => total_attributes.map fun second => Value.pair first second
  have opening : Total bound 1 (Expr.denote (.recursive whole) self openBracket)
      (Expr.denote (.recursive whole) self openBracket) := (Similar.mark '<').token_expr.named
  have closing : Total (bound - (1 + (1 + 0))) 2 (Expr.denote (.recursive whole) self closeBracket)
      (Expr.denote (.recursive whole) self closeBracket) := (Similar.word "/>").token_expr.named
  have tag := parts.token_expr.between opening closing
  exact Similar.named (p := .between _ _ _) (tag.mono (by omega) (Nat.le_refl _))

end Html

/-- All shipped grammars, and the parsers of texts in quotes, of letters, of blanks and of numbers up
to any limit, end in an outcome on every text. In the parser of documents the nested runs get less
text each than the run around them. -/
theorem shipped_total :
    (Session.Gives Json.value fun text answer => ∃ outcome, answer = .outcome outcome ∧
      ∀ depth, text.length < depth →
        ∃ nestings, (Json.body.listed depth text).run.run [] = (.ok outcome, nestings) ∧
          ∀ nesting ∈ nestings, nesting.Descends) ∧
    (∀ grammar ∈ [Html.emptyTag, Html.tagAttribute, .prim .stringLiteral, .prim .letters,
      .prim .spaces], grammar.IsTotal) ∧
    ∀ limit : Option Int, (Expr.prim (.natural (limit.elim .null .int))).IsTotal := by
  refine ⟨Json.value_gives, ?_, fun limit => Expr.isTotal_prim (plain_natural fun number => ?_)⟩
  · simp only [List.forall_mem_cons, List.not_mem_nil, false_implies, implies_true, and_true]
    exact ⟨Expr.isTotal_of_total rfl fun _ _ => Html.total_emptyTag,
      Expr.isTotal_of_total rfl fun _ _ => Html.total_tagAttribute,
      Expr.isTotal_prim plain_stringLiteral, Expr.isTotal_prim plain_letters,
      Expr.isTotal_prim plain_spaces⟩
  · cases limit <;> exact ⟨_, rfl⟩

end Grammar
end Descent
