import Descent.Proofs.Json.Acceptance
import Descent.Proofs.Json.Dialect

/-!
# Writing and reading documents

The parser reads back what is written of a value of the dialect, whatever follows it, and it gives
values of the dialect only. Main statement: printing and parsing are inverse to one another on the
dialect, at every depth and in every order of entries. The blanks that follow are skipped, and only a
number must not be followed by a further digit.
-/

namespace Descent.Grammar.Json

/-- The text of a value and all blanks after it are a document, up to the first other character. -/
theorem print_leads {v : Value} (dialect : inDialect v) {rest : Text} (ends : Ends v rest) :
    ∃ document : Document, document.Leads (print v ++ rest) (rest.dropWhile Unicode.isBlank) ∧
      document.value = v := by
  obtain ⟨body, text, value, maximal⟩ := body_of_inDialect v dialect
  have blanks : ∀ c ∈ rest.takeWhile Unicode.isBlank, Unicode.isBlank c :=
    fun _ member => List.mem_takeWhile_imp member
  have whole : rest.takeWhile Unicode.isBlank ++ rest.dropWhile Unicode.isBlank = rest :=
    List.takeWhile_append_dropWhile
  refine ⟨.mk body ⟨_, blanks⟩, ⟨?_, ?_, Parser.stops_dropWhile _ _⟩, value⟩
  · rw [Document.text, List.append_assoc, whole, text]
  · rw [Document.Maximal, whole]
    exact maximal rest ends

theorem accepts_print {v : Value} (dialect : inDialect v) {rest : Text} (ends : Ends v rest)
    {depth : Nat} (deep : (print v ++ rest).length < depth) :
    (body.alone depth).Accepts (print v ++ rest) v (rest.dropWhile Unicode.isBlank) := by
  obtain ⟨document, leads, value⟩ := print_leads dialect ends
  exact (accepts_alone deep).mpr ⟨document, leads, value⟩

theorem inDialect_of_accepts {text rest : Text} {v : Value} {depth : Nat}
    (accepted : (body.alone depth).Accepts text v rest) : inDialect v := by
  obtain ⟨document, -, rfl⟩ := alone_sound depth text v rest accepted
  exact document.inDialect_value

theorem gives_print {v : Value} (dialect : inDialect v) {rest : Text} (ends : Ends v rest) :
    Session.Gives value fun text answer => text = print v ++ rest →
      answer = .outcome (.success v (rest.dropWhile Unicode.isBlank)) := by
  refine Session.gives_of_alone (show body.isSelfContained from rfl) (.inr rfl) ?_
  rintro _ depth deep rfl
  rw [show body.alone depth _ = _ from accepts_print dialect ends deep]
  rfl

/-- Every run of the parser on the text of a value of the dialect and a rest gives that value, and
leaves the rest without its blanks. Conversely every value that a run gives is in the dialect, so
that runs on its text give it again and leave nothing. -/
theorem parse_print_dialect :
    (∀ v rest, inDialect v → Ends v rest →
      Session.Gives value fun text answer => text = print v ++ rest →
        answer = .outcome (.success v (rest.dropWhile Unicode.isBlank))) ∧
    Session.Gives value fun _ answer => ∀ v rest, answer = .outcome (.success v rest) →
      inDialect v ∧ Session.Gives value fun text again => text = print v →
        again = .outcome (.success v []) := by
  refine ⟨fun v rest dialect ends => gives_print dialect ends, ?_⟩
  refine Session.gives_of_alone (show body.isSelfContained from rfl) (.inr rfl)
    fun text depth _ v rest answered => ?_
  have accepted : (body.alone depth).Accepts text v rest := by
    unfold Parser.Accepts
    cases outcome : body.alone depth text <;> rw [outcome] at answered <;> cases answered
    rfl
  have dialect := inDialect_of_accepts accepted
  have nothing : Ends v [] := fun _ _ => Text.stops_nil _
  have again := gives_print dialect nothing
  exact ⟨dialect, by simpa using again⟩

end Descent.Grammar.Json
