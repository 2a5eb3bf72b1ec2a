import Descent.Expr.Denote
import Descent.Proofs.Acceptance.Lexical

/-!
# What the derived forms of expressions accept

Marks, words, blanks after a part and ordered choice, in any host and inside any recursive parser.
-/

namespace Descent

/-- Blanks, or nothing. -/
structure Gap where
  text : Text
  blank : ∀ c ∈ text, Unicode.isBlank c

namespace Expr

open Descent.Parser

variable {ι : Type} {host : Host ι (Except Fault)} {self p : Expr ι} {text rest : Text}
  {result : Value}

theorem accepts_token :
    Accepts (denote host self p.token) text result rest
      ↔ ∃ gap : Gap, Accepts (denote host self p) text result (gap.text ++ rest) ∧
          rest.Stops Unicode.isBlank := by
  change Accepts ((denote host self p).precedes (skipBlank.map fun _ => Value.null).lift) _ _ _ ↔ _
  rw [lift_eq, accepts_precedes]
  simp only [accepts_map]
  constructor
  · rintro ⟨middle, _, matched, _, skipped, rfl⟩
    obtain ⟨gap, rfl, blank, stops⟩ := accepts_skipBlank.mp skipped
    exact ⟨⟨gap, blank⟩, matched, stops⟩
  · rintro ⟨gap, matched, stops⟩
    exact ⟨_, _, matched, (), accepts_skipBlank.mpr ⟨gap.text, rfl, gap.blank, stops⟩, rfl⟩

theorem rejects_token (h : Rejects (denote host self p) text) :
    Rejects (denote host self p.token) text :=
  h.precedes _

theorem accepts_mark {c : Char} :
    Accepts (denote host self (.char c)) text result rest
      ↔ result = .str [c] ∧ text = c :: rest := by
  change Accepts ((Parser.char c).map fun c => Value.str [c]).lift _ _ _ ↔ _
  simp only [lift_eq, accepts_map, accepts_char]
  constructor
  · rintro ⟨_, ⟨rfl, rfl⟩, rfl⟩
    exact ⟨rfl, rfl⟩
  · rintro ⟨rfl, rfl⟩
    exact ⟨c, ⟨rfl, rfl⟩, rfl⟩

theorem rejects_mark {c : Char} (differs : text.head? ≠ some c) :
    Rejects (denote host self (.char c)) text := by
  change Rejects ((Parser.char c).map fun c => Value.str [c]).lift _
  rw [lift_eq, rejects_map]
  exact rejects_char.mpr differs

theorem accepts_fixed {word : String} :
    Accepts (denote host self (.string word)) text result rest
      ↔ result = .str word.toList ∧ text = word.toList ++ rest := by
  change Accepts ((Parser.string word.toList).map Value.str).lift _ _ _ ↔ _
  simp only [lift_eq, accepts_map, accepts_string]
  constructor
  · rintro ⟨_, ⟨rfl, rfl⟩, rfl⟩
    exact ⟨rfl, rfl⟩
  · rintro ⟨rfl, rfl⟩
    exact ⟨_, ⟨rfl, rfl⟩, rfl⟩

theorem rejects_fixed {word : String} (differs : ¬ word.toList <+: text) :
    Rejects (denote host self (.string word)) text := by
  change Rejects ((Parser.string word.toList).map Value.str).lift _
  rw [lift_eq, rejects_map]
  exact rejects_string.mpr differs

theorem accepts_word {word : String} {value : Value} :
    Accepts (denote host self ((Expr.string word).mapTo fun _ => value)) text result rest
      ↔ value = result ∧ text = word.toList ++ rest := by
  change Accepts (Parser.mapM (denote host self (.string word)) _) _ _ _ ↔ _
  simp only [accepts_mapM, accepts_fixed]
  constructor
  · rintro ⟨_, ⟨rfl, rfl⟩, done⟩
    cases done
    exact ⟨rfl, rfl⟩
  · rintro ⟨rfl, rfl⟩
    exact ⟨_, ⟨rfl, rfl⟩, rfl⟩

theorem rejects_word {word : String} {value : Value} (c : Char)
    (begins : word.toList.head? = some c) (differs : text.head? ≠ some c) :
    Rejects (denote host self ((Expr.string word).mapTo fun _ => value)) text := by
  change Rejects (Parser.mapM (denote host self (.string word)) _) _
  rw [rejects_mapM]
  obtain ⟨tail, shape⟩ := List.head?_eq_some_iff.mp begins
  apply rejects_fixed
  rw [shape]
  rintro ⟨after, rfl⟩
  exact differs rfl

/-- Of several alternatives the first one accepts that does not reject. -/
theorem accepts_choice {ps : List (Expr ι)} :
    Accepts (denote host self (.choice ps)) text result rest
      ↔ ∃ before p after, ps = before ++ p :: after ∧
          (∀ q ∈ before, Rejects (denote host self q) text) ∧
          Accepts (denote host self p) text result rest := by
  induction ps with
  | nil =>
    constructor
    · intro accepted
      cases accepted
    · rintro ⟨before, p, after, shape, -⟩
      simp at shape
  | cons first ps ih =>
    change Accepts (Parser.alternate (denote host self first) (denote host self (.choice ps)))
      _ _ _ ↔ _
    rw [accepts_alternate, ih]
    constructor
    · rintro (matched | ⟨rejected, before, p, after, rfl, others, matched⟩)
      · exact ⟨[], first, ps, rfl, nofun, matched⟩
      · exact ⟨first :: before, p, after, rfl, List.forall_mem_cons.mpr ⟨rejected, others⟩, matched⟩
    · rintro ⟨before, p, after, shape, others, matched⟩
      cases before with
      | nil =>
        cases shape
        exact .inl matched
      | cons other before =>
        cases shape
        obtain ⟨rejected, others⟩ := List.forall_mem_cons.mp others
        exact .inr ⟨rejected, before, p, after, rfl, others, matched⟩

theorem rejects_choice {ps : List (Expr ι)}
    (all : ∀ p ∈ ps, Rejects (denote host self p) text) :
    Rejects (denote host self (.choice ps)) text := by
  induction ps with
  | nil => exact ⟨_, rfl⟩
  | cons first ps ih =>
    obtain ⟨rejected, others⟩ := List.forall_mem_cons.mp all
    exact rejects_alternate.mpr ⟨rejected, ih others⟩

end Expr
end Descent
