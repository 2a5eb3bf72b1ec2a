import Descent.Proofs.Acceptance.Lexical
import Descent.Proofs.Errors
import Descent.Proofs.Repetition
import Mathlib.Data.Set.Function

/-!
# Quoted literals

Main statement: the parser of literals succeeds exactly on a literal and what comes after it, with the
text that the literal writes. Writing texts in quotes is a bijection between the texts that do not end
in the escape character and the literals. Where a text begins with a quote and no literal, there is no
quote that closes it: the characters of a literal go on up to such a quote or to the end of the text, and
the parser fails there.
-/

namespace Descent

namespace Lexical

/-- A text in quotes. -/
def literal (content : Text) : Text := quote :: (escaped content ++ [quote])

/-- Whether a text can be written in quotes. -/
def Quotable (content : Text) : Prop := content.getLast? ≠ some escape

theorem literal_append (content rest : Text) :
    literal content ++ rest = quote :: (escaped content ++ quote :: rest) := by
  simp [literal]

end Lexical

open Lexical

/-! ## Where literals end -/

namespace Parser

theorem accepts_literal {text content rest : Text} :
    Accepts stringLiteral text content rest ↔ Quotable content ∧ text = literal content ++ rest := by
  rw [accepts_stringLiteral, literal_append, and_comm]
  rfl

/-- Any character but a quote goes on with a literal, by itself or with a quote that it escapes. -/
theorem accepts_literalChar_of_ne {c : Char} (plain : c ≠ quote) (text : Text) :
    ∃ d rest, Accepts literalChar (c :: text) d rest ∧ rest.length < (c :: text).length := by
  by_cases escapes : c = escape ∧ text.head? = some quote
  · obtain ⟨rfl, begins⟩ := escapes
    obtain ⟨rest, rfl⟩ := List.head?_eq_some_iff.mp begins
    refine ⟨quote, rest, accepts_literalChar.mpr (.inl ⟨rfl, rfl⟩), ?_⟩
    simp only [List.length_cons]
    omega
  · exact ⟨c, text, accepts_literalChar.mpr (.inr ⟨plain, rfl, escapes⟩), by simp⟩

theorem many_literalChar (text : Text) : ∃ content rest,
    literalChar.many.Accepts text content rest ∧ (rest = [] ∨ rest.head? = some quote) := by
  obtain ⟨content, rest, rounds, ends⟩ := exists_rounds literalChar text
  cases rest with
  | nil => exact ⟨content, [], accepts_many.mpr ⟨rounds, _, rfl⟩, .inl rfl⟩
  | cons c rest =>
    by_cases closes : c = quote
    · subst closes
      exact ⟨content, _, accepts_many.mpr ⟨rounds, rejects_literalChar rest⟩, .inr rfl⟩
    · obtain ⟨d, after, accepted, shorter⟩ := accepts_literalChar_of_ne closes rest
      exact absurd shorter (ends d after accepted)

theorem stringLiteral_of_head?_ne {text : Text} (unquoted : text.head? ≠ some quote) :
    (stringLiteral : Parser (Except Fault) Text) text
      = .ok (.failure ⟨text.failureMessage, text, []⟩) := by
  have first : (char quote : Parser (Except Fault) Char) text = _ := char_of_head?_ne unquoted
  have opened : ((char quote).andThen literalChar.many) text = _ :=
    flatMap_of_failure first fun _ => literalChar.many
  exact flatMap_of_failure opened fun content => (char quote).map fun _ => content

theorem stringLiteral_ends (text : Text) :
    (∃ content rest, Accepts stringLiteral text content rest) ∨
      (stringLiteral : Parser (Except Fault) Text) text = .ok (.failure
        (if text.head? = some quote then ⟨Text.exhausted, [], []⟩
          else ⟨text.failureMessage, text, []⟩)) := by
  by_cases begins : text.head? = some quote
  · rw [if_pos begins]
    obtain ⟨after, rfl⟩ := List.head?_eq_some_iff.mp begins
    have opens : Accepts (char quote) (quote :: after) quote after := accepts_char.mpr ⟨rfl, rfl⟩
    obtain ⟨content, rest, accepted, ends⟩ := many_literalChar after
    rcases ends with none | closes
    · right
      subst none
      have inner : ((char quote).andThen literalChar.many).Accepts (quote :: after) content [] :=
        accepts_andThen.mpr ⟨quote, after, opens, accepted⟩
      exact flatMap_of_accepts inner fun content => (char quote).map fun _ => content
    · left
      obtain ⟨last, rfl⟩ := List.head?_eq_some_iff.mp closes
      have closed : Accepts (char quote) (quote :: last) quote last := accepts_char.mpr ⟨rfl, rfl⟩
      exact ⟨content, last, accepts_between.mpr ⟨after, _, quote, quote, opens, accepted, closed⟩⟩
  · rw [if_neg begins]
    exact .inr (stringLiteral_of_head?_ne begins)

end Parser

/-! ## Answers -/

/-- What the parser of literals answers on a text. -/
structure Lexical.LiteralAnswer (text : Text) (answer : Answer) : Prop where
  accepted : ∀ value rest, answer = .outcome (.success value rest) ↔
    ∃ content, value = .str content ∧ Quotable content ∧ text = literal content ++ rest
  unclosed : text.head? = some quote →
    (∀ content rest, Quotable content → text ≠ literal content ++ rest) →
    answer = .outcome (.failure ⟨"Exhausted input", [], []⟩)
  unquoted : text.head? ≠ some quote →
    (Parser.char quote : Parser (Except Fault) Char) text
        = .ok (.failure ⟨text.failureMessage, text, []⟩) ∧
      answer = .outcome (.failure ⟨text.failureMessage, text, []⟩)
  never_faults : ∃ outcome, answer = .outcome outcome

theorem Lexical.literalAnswer (text : Text) :
    LiteralAnswer text (.ofRun .parse text (Primitive.stringLiteral.parse text)) := by
  have written (content : Text) (rest : Text) (quotable : Quotable content)
      (shape : text = literal content ++ rest) :
      Parser.Accepts Primitive.stringLiteral.parse text (.str content) rest :=
    Parser.accepts_map.mpr ⟨content, Parser.accepts_literal.mpr ⟨quotable, shape⟩, rfl⟩
  have failing {f : Failure}
      (failed : (Parser.stringLiteral : Parser (Except Fault) Text) text = .ok (.failure f)) :
      Primitive.stringLiteral.parse text = .ok (.failure f) := Parser.map_of_failure failed _
  constructor
  · intro value rest
    rw [Answer.ofRun_eq_outcome]
    constructor
    · intro accepted
      obtain ⟨content, inner, rfl⟩ := Parser.accepts_map.mp accepted
      obtain ⟨quotable, shape⟩ := Parser.accepts_literal.mp inner
      exact ⟨content, rfl, quotable, shape⟩
    · intro ⟨content, same, quotable, shape⟩
      rw [same]
      exact written content rest quotable shape
  · intro begins other
    rw [Answer.ofRun_eq_outcome]
    rcases Parser.stringLiteral_ends text with ⟨content, rest, accepted⟩ | failed
    · obtain ⟨quotable, shape⟩ := Parser.accepts_literal.mp accepted
      exact absurd shape (other content rest quotable)
    · rw [if_pos begins] at failed
      exact failing failed
  · intro differs
    rw [Answer.ofRun_eq_outcome]
    exact ⟨Parser.char_of_head?_ne differs, failing (Parser.stringLiteral_of_head?_ne differs)⟩
  · simp only [Answer.ofRun_eq_outcome]
    rcases Parser.stringLiteral_ends text with ⟨content, rest, accepted⟩ | failed
    · obtain ⟨quotable, shape⟩ := Parser.accepts_literal.mp accepted
      exact ⟨_, written content rest quotable shape⟩
    · exact ⟨_, failing failed⟩

/-- In every session the parser of literals answers as `LiteralAnswer` says, and the texts that can be
written in quotes correspond to the texts that it accepts as a whole. -/
theorem Session.stringLiteral_bijective (session : Session) :
    (∃ next, session.build (.prim .stringLiteral) = .ok (.fix (.prim .stringLiteral), next)) ∧
    (∀ text, LiteralAnswer text (session.answer (.fix (.prim .stringLiteral)) text .parse)) ∧
    Set.BijOn literal {content | Quotable content}
      {text | ∃ value, session.answer (.fix (.prim .stringLiteral)) text .parse
        = .outcome (.success value [])} := by
  have answers (text : Text) :
      LiteralAnswer text (session.answer (.fix (.prim .stringLiteral)) text .parse) := by
    rw [answer_eq, parse_prim]
    exact literalAnswer text
  have accepted (content : Text) (quotable : Quotable content) :
      session.answer (.fix (.prim .stringLiteral)) (literal content) .parse
        = .outcome (.success (.str content) []) :=
    ((answers _).accepted _ _).mpr ⟨content, rfl, quotable, (List.append_nil _).symm⟩
  refine ⟨⟨_, rfl⟩, answers, ?_, ?_, ?_⟩
  · intro content quotable
    exact ⟨_, accepted content quotable⟩
  · intro content quotable other quotable' same
    have twice := accepted content quotable
    rw [same, accepted other quotable'] at twice
    simpa [eq_comm] using twice
  · intro text ⟨value, whole⟩
    obtain ⟨content, -, quotable, shape⟩ := ((answers text).accepted _ _).mp whole
    exact ⟨content, quotable, by rw [shape, List.append_nil]⟩

end Descent
