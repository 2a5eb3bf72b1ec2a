import Descent.Parser.Lexical
import Descent.Proofs.Comparison.Basic

/-!
# Comparing lexical parsers

The lexical parsers are similar to themselves in another monad, under every tolerance. All of them
but `spaces` consume something whenever they succeed, so the repetitions in them end.
-/

namespace Descent.Comparison.Similar

variable {m n : Type → Type} [Monad m] [Monad n] [MonadExceptOf Fault m] [MonadExceptOf Fault n]
variable {c : Comparison m n} {t : Tolerance} {bound : Nat}

theorem satisfyM {accepts : Char → m Bool} {accepts' : Char → n Bool}
    (tests : ∀ ch, c.Rel Eq (accepts ch) (accepts' ch)) :
    c.Similar t bound 1 (Parser.satisfyM accepts) (Parser.satisfyM accepts') := by
  intro text _
  cases text with
  | nil => exact c.rel_pure (.failure (t.rel_plain (List.suffix_refl [])))
  | cons ch rest =>
    refine c.rel_bind (tests ch) fun accepted accepted' equal => ?_
    subst equal
    cases accepted with
    | true => exact c.rel_pure (.success (List.suffix_cons ch rest) (by simp))
    | false => exact c.rel_pure (.failure (t.rel_plain (List.suffix_refl _)))

theorem satisfy (accepts : Char → Bool) :
    c.Similar t bound 1 (Parser.satisfy (m := m) accepts) (Parser.satisfy (m := n) accepts) :=
  satisfyM fun _ => c.rel_pure rfl

theorem string (value : Text) :
    c.Similar t bound value.length (Parser.string (m := m) value)
      (Parser.string (m := n) value) := by
  intro text _
  unfold Parser.string
  split
  · rename_i here
    have enough := (List.isPrefixOf_iff_prefix.mp here).length_le
    refine c.rel_pure (.success (List.drop_suffix _ _) ?_)
    rw [List.length_drop]
    omega
  · exact c.rel_pure (.failure (t.rel_plain (List.suffix_refl text)))

theorem letters :
    c.Similar t bound 1 (Parser.letters (m := m)) (Parser.letters (m := n)) :=
  (satisfy Unicode.isLetter).many1 (.inl Nat.one_pos)

theorem spaces :
    c.Similar t bound 0 (Parser.spaces (m := m)) (Parser.spaces (m := n)) :=
  ((satisfy Unicode.isBlank).many (.inl Nat.one_pos)).map _

theorem naturalUnless {exceeded? : Nat → m (Option String)} {exceeded?' : Nat → n (Option String)}
    (limits : ∀ number, c.Rel Eq (exceeded? number) (exceeded?' number)) :
    c.Similar t bound 1 (Parser.naturalUnless exceeded?) (Parser.naturalUnless exceeded?') := by
  intro text inside
  have digits : c.Similar t bound 1 ((Parser.oneOf (m := m) Text.decimalDigits).many1)
      ((Parser.oneOf (m := n) Text.decimalDigits).many1) :=
    (satisfy Text.decimalDigits.contains).many1 (.inl Nat.one_pos)
  refine c.rel_bind (digits text inside) fun o o' agree => ?_
  cases agree with
  | failure related => exact c.rel_pure (.failure related)
  | @success digits rest suffix consumed =>
    simp only [Outcome.flatMapSuccess, Parser.naturalOf]
    split
    · exact c.rel_pure (.failure (t.rel_plain suffix))
    · refine c.rel_bind (limits _) fun limit limit' equal => ?_
      subst equal
      cases limit with
      | none => exact c.rel_pure (.success suffix consumed)
      | some limit => exact c.rel_pure (.failure (t.rel_plain suffix))

theorem stringLiteral :
    c.Similar t bound 2 (Parser.stringLiteral (m := m)) (Parser.stringLiteral (m := n)) := by
  have escaped : c.Similar t (bound - 1) 1
      ((Parser.string (m := m) [Lexical.escape, Lexical.quote]).map fun _ => Lexical.quote)
      ((Parser.string (m := n) [Lexical.escape, Lexical.quote]).map fun _ => Lexical.quote) :=
    ((string _).mono (by simp) (Nat.le_refl _)).map _
  have items := (escaped.alternate (satisfy fun ch => !List.contains [Lexical.quote] ch)).many
    (.inl Nat.one_pos)
  exact items.between (satisfy (· == Lexical.quote)) (satisfy (· == Lexical.quote))

end Descent.Comparison.Similar
